import ReadThrough.Time

/-!
# The written form of a duration

A duration is written in the largest of the units `s`, `ms`, `µs` and `ns` of
which it holds at least one.  The fraction follows a point, without zeros at
its end, and is left out when it is zero.
-/

namespace ReadThrough.Duration

/-- Drop the zeros at the end of a list of digits. -/
def withoutTrailingZeros (digits : List Char) : List Char :=
  (digits.reverse.dropWhile (· == '0')).reverse

/-- The digits of a number, filled up with leading zeros to a width. -/
def paddedDigits (width number : Nat) : List Char :=
  let digits := Nat.toDigits 10 number
  List.replicate (width - digits.length) '0' ++ digits

/-- A point and the digits after it; nothing for a zero fraction. -/
def fractionText (width fraction : Nat) : String :=
  match withoutTrailingZeros (paddedDigits width fraction) with
  | [] => ""
  | digits => String.ofList ('.' :: digits)

/-- A duration in a unit of `10 ^ width` nanoseconds. -/
def textIn (width : Nat) (unit : String) (duration : Duration) : String :=
  let size := Nat.pow 10 width
  String.ofList (Nat.toDigits 10 (duration / size))
    ++ fractionText width (duration % size) ++ unit

/-- The written form of a duration. -/
def text (duration : Duration) : String :=
  if perSecond ≤ duration then duration.textIn 9 "s"
  else if perMillisecond ≤ duration then duration.textIn 6 "ms"
  else if 1000 ≤ duration then duration.textIn 3 "µs"
  else duration.textIn 0 "ns"

end ReadThrough.Duration
