import ReadThrough.Xxh3.Word

/-!
# Messages of more than 240 bytes

A long message is absorbed in stripes of 64 bytes by eight lanes.  After every
sixteenth stripe the lanes are scrambled.  The last 64 bytes form one more
stripe, which may overlap the one before it.
-/

namespace ReadThrough.Xxh3

/-- The lanes before the first stripe. -/
def initialLanes : List UInt64 :=
  [prime32Third, prime64First, prime64Second, prime64Third,
   prime64Fourth, prime32Second, prime64Fifth, prime32First]

/-- Lanes are neighbours in pairs: an even lane and the odd one after it. -/
def neighbour (index : Nat) : Nat :=
  if index % 2 = 0 then index + 1 else index - 1

/-- Absorb the stripe at an offset.  Each lane takes the product of the two
halves of its own keyed word, and its neighbour's plain word. -/
def absorbStripe
    (message : ByteArray) (offset secretOffset : Nat)
    (lanes : List UInt64) : List UInt64 :=
  lanes.mapIdx fun (index : Nat) (lane : UInt64) =>
    let keyed :=
      wordAt message (offset + 8 * index) ^^^
        secretWord (secretOffset + 8 * index)
    lane + wordAt message (offset + 8 * neighbour index) +
      lowHalf keyed * highHalf keyed

/-- Stir the lanes at the end of a block of sixteen stripes. -/
def scramble (lanes : List UInt64) : List UInt64 :=
  lanes.mapIdx fun (index : Nat) (lane : UInt64) =>
    (lane ^^^ (lane >>> 47) ^^^ secretWord (128 + 8 * index)) * prime32First

/-- Absorb the stripe with a number, and scramble behind every sixteenth. -/
def absorbNumbered
    (message : ByteArray) (lanes : List UInt64) (number : Nat) :
    List UInt64 :=
  let absorbed :=
    absorbStripe message (64 * number) (8 * (number % 16)) lanes
  if number % 16 = 15 then scramble absorbed else absorbed

/-- Join the lanes in pairs. -/
def mergeLanes : Nat → List UInt64 → UInt64
  | secretOffset, left :: right :: rest =>
      foldedProduct
          (left ^^^ secretWord secretOffset)
          (right ^^^ secretWord (secretOffset + 8)) +
        mergeLanes (secretOffset + 16) rest
  | _, _ => 0

/-- The hash of a message of more than 240 bytes. -/
def hashLong (message : ByteArray) : UInt64 :=
  let length := message.size
  let absorbed :=
    (List.range ((length - 1) / 64)).foldl
      (absorbNumbered message) initialLanes
  let lanes := absorbStripe message (length - 64) 121 absorbed
  finish (length.toUInt64 * prime64First + mergeLanes 11 lanes)

end ReadThrough.Xxh3
