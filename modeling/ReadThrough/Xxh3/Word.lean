/-!
# Words of the XXH3 hash

The 64-bit hash XXH3 mixes little-endian words of its message with words of a
fixed secret of 192 bytes.  This module reads both kinds of words, gives the
multipliers, and defines the mixing functions that all message lengths share.
-/

namespace ReadThrough.Xxh3

/-! ## Multipliers -/

/-- The first 32-bit prime. -/
def prime32First : UInt64 := 0x9E3779B1

/-- The second 32-bit prime. -/
def prime32Second : UInt64 := 0x85EBCA77

/-- The third 32-bit prime. -/
def prime32Third : UInt64 := 0xC2B2AE3D

/-- The first 64-bit prime. -/
def prime64First : UInt64 := 0x9E3779B185EBCA87

/-- The second 64-bit prime. -/
def prime64Second : UInt64 := 0xC2B2AE3D27D4EB4F

/-- The third 64-bit prime. -/
def prime64Third : UInt64 := 0x165667B19E3779F9

/-- The fourth 64-bit prime. -/
def prime64Fourth : UInt64 := 0x85EBCA77C2B2AE63

/-- The fifth 64-bit prime. -/
def prime64Fifth : UInt64 := 0x27D4EB2F165667C5

/-- The multiplier of the final mixing. -/
def mixerFirst : UInt64 := 0x165667919E3779F9

/-- The multiplier for messages of four to eight bytes. -/
def mixerSecond : UInt64 := 0x9FB21C651E98DF25

/-! ## The secret -/

/-- The secret as consecutive little-endian words. -/
def secretWords : List UInt64 :=
  [0xBE4BA423396CFEB8, 0x1CAD21F72C81017C, 0xDB979083E96DD4DE,
   0x1F67B3B7A4A44072, 0x78E5C0CC4EE679CB, 0x2172FFCC7DD05A82,
   0x8E2443F7744608B8, 0x4C263A81E69035E0, 0xCB00C391BB52283C,
   0xA32E531B8B65D088, 0x4EF90DA297486471, 0xD8ACDEA946EF1938,
   0x3F349CE33F76FAA8, 0x1D4F0BC7C7BBDCF9, 0x3159B4CD4BE0518A,
   0x647378D9C97E9FC8, 0xC3EBD33483ACC5EA, 0xEB6313FAFFA081C5,
   0x49DAF0B751DD0D17, 0x9E68D429265516D3, 0xFCA1477D58BE162B,
   0xCE31D07AD1B8F88F, 0x280416958F3ACB45, 0x7E404BBBCAFBD7AF]

/-- The secret as one number whose lowest byte is the first byte. -/
def secretNumber : Nat :=
  secretWords.foldr (fun word rest => word.toNat + (rest <<< 64)) 0

/-- The eight bytes of the secret from an offset on. -/
def secretWord (offset : Nat) : UInt64 :=
  UInt64.ofNat (secretNumber >>> (8 * offset))

/-- The lower 32 bits of a word. -/
def lowHalf (word : UInt64) : UInt64 :=
  word &&& 0xFFFFFFFF

/-- The upper 32 bits of a word. -/
def highHalf (word : UInt64) : UInt64 :=
  word >>> 32

/-- The four bytes of the secret from an offset on. -/
def secretHalf (offset : Nat) : UInt64 :=
  lowHalf (secretWord offset)

/-! ## The message -/

/-- One byte of the message; bytes behind its end are zero. -/
def byteAt (message : ByteArray) (index : Nat) : UInt64 :=
  if inside : index < message.size then message[index].toUInt64 else 0

/-- Little-endian number of `count` bytes from an offset on. -/
def bytesAt (message : ByteArray) (count offset : Nat) : UInt64 :=
  (List.range count).foldr
    (fun index rest => byteAt message (offset + index) ||| (rest <<< 8)) 0

/-- The eight bytes of the message from an offset on. -/
def wordAt (message : ByteArray) (offset : Nat) : UInt64 :=
  bytesAt message 8 offset

/-- The four bytes of the message from an offset on. -/
def halfAt (message : ByteArray) (offset : Nat) : UInt64 :=
  bytesAt message 4 offset

/-! ## Mixing -/

/-- Rotate a word to the left. -/
def rotate (word amount : UInt64) : UInt64 :=
  (word <<< amount) ||| (word >>> (64 - amount))

/-- Reverse the order of the eight bytes of a word. -/
def reverseBytes (word : UInt64) : UInt64 :=
  (List.range 8).foldl
    (fun reversed index =>
      (reversed <<< 8) ||| ((word >>> (8 * index.toUInt64)) &&& 0xFF)) 0

/-- Multiply to 128 bits and join both halves with exclusive or. -/
def foldedProduct (left right : UInt64) : UInt64 :=
  let product := left.toNat * right.toNat
  UInt64.ofNat product ^^^ UInt64.ofNat (product >>> 64)

/-- The final mixing of messages of more than eight bytes. -/
def finish (word : UInt64) : UInt64 :=
  let first := (word ^^^ (word >>> 37)) * mixerFirst
  first ^^^ (first >>> 32)

/-- The final mixing of messages of less than four bytes. -/
def finishTiny (word : UInt64) : UInt64 :=
  let first := (word ^^^ (word >>> 33)) * prime64Second
  let second := (first ^^^ (first >>> 29)) * prime64Third
  second ^^^ (second >>> 32)

/-- The final mixing of messages of four to eight bytes. -/
def finishSmall (word length : UInt64) : UInt64 :=
  let first := (word ^^^ rotate word 49 ^^^ rotate word 24) * mixerSecond
  let second := (first ^^^ ((first >>> 35) + length)) * mixerSecond
  second ^^^ (second >>> 28)

/-- Mix sixteen bytes of the message with sixteen bytes of the secret. -/
def mixedPair (message : ByteArray) (offset secretOffset : Nat) : UInt64 :=
  foldedProduct
    (wordAt message offset ^^^ secretWord secretOffset)
    (wordAt message (offset + 8) ^^^ secretWord (secretOffset + 8))

end ReadThrough.Xxh3
