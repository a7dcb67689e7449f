import ReadThrough.Xxh3.Word

/-!
# Messages of at most 240 bytes

Every range of lengths has its own formula: none, one to three, four to eight,
nine to sixteen, up to 128 and up to 240 bytes.
-/

namespace ReadThrough.Xxh3

/-- The hash of the empty message. -/
def hashEmpty : UInt64 :=
  finishTiny (secretWord 56 ^^^ secretWord 64)

/-- The hash of a message of one to three bytes. -/
def hashTiny (message : ByteArray) : UInt64 :=
  let length := message.size
  let first := byteAt message 0
  let middle := byteAt message (length / 2)
  let last := byteAt message (length - 1)
  let combined :=
    (first <<< 16) ||| (middle <<< 24) ||| last ||| (length.toUInt64 <<< 8)
  finishTiny (combined ^^^ (secretHalf 0 ^^^ secretHalf 4))

/-- The hash of a message of four to eight bytes. -/
def hashSmall (message : ByteArray) : UInt64 :=
  let length := message.size
  let joined := halfAt message (length - 4) + (halfAt message 0 <<< 32)
  finishSmall (joined ^^^ (secretWord 8 ^^^ secretWord 16)) length.toUInt64

/-- The hash of a message of nine to sixteen bytes. -/
def hashMedium (message : ByteArray) : UInt64 :=
  let length := message.size
  let low := wordAt message 0 ^^^ (secretWord 24 ^^^ secretWord 32)
  let high :=
    wordAt message (length - 8) ^^^ (secretWord 40 ^^^ secretWord 48)
  finish (length.toUInt64 + reverseBytes low + high + foldedProduct low high)

/-- The hash of a message of 17 to 128 bytes: pairs of sixteen bytes are taken
from both ends towards the middle. -/
def hashFromBothEnds (message : ByteArray) : UInt64 :=
  let length := message.size
  let pairs := (length - 1) / 32 + 1
  finish <|
    (List.range pairs).foldl
      (fun sum index =>
        sum + mixedPair message (16 * index) (32 * index) +
          mixedPair message (length - 16 * (index + 1)) (32 * index + 16))
      (length.toUInt64 * prime64First)

/-- The hash of a message of 129 to 240 bytes. -/
def hashInTwoRounds (message : ByteArray) : UInt64 :=
  let length := message.size
  let firstRound :=
    (List.range 8).foldl
      (fun sum index => sum + mixedPair message (16 * index) (16 * index))
      (length.toUInt64 * prime64First)
  let secondRound :=
    (List.range (length / 16 - 8)).foldl
      (fun sum index =>
        sum + mixedPair message (16 * (index + 8)) (16 * index + 3))
      (mixedPair message (length - 16) 119)
  finish (finish firstRound + secondRound)

end ReadThrough.Xxh3
