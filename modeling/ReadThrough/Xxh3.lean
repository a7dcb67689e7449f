import ReadThrough.Xxh3.Long
import ReadThrough.Xxh3.Short

/-!
# The XXH3 hash of 64 bits

The hash with seed zero and the default secret.  It is defined for every
message, and spreads names over shards.
-/

namespace ReadThrough.Xxh3

/-- The 64-bit hash of a message. -/
def hash (message : ByteArray) : UInt64 :=
  let length := message.size
  if length = 0 then hashEmpty
  else if length ≤ 3 then hashTiny message
  else if length ≤ 8 then hashSmall message
  else if length ≤ 16 then hashMedium message
  else if length ≤ 128 then hashFromBothEnds message
  else if length ≤ 240 then hashInTwoRounds message
  else hashLong message

/-- The hash of the UTF-8 bytes of a text. -/
def hashText (text : String) : UInt64 :=
  hash text.toUTF8

end ReadThrough.Xxh3
