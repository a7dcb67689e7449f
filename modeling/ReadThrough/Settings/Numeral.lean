/-!
# Numerals and truth values in settings

A number is written as decimal digits with at most one plus sign before them,
and has to lie below a limit.  A truth value is `true` or `false`.
-/

namespace ReadThrough.Settings

/-- The value of decimal digits; nothing if one of the characters is none. -/
def digitsValue? (digits : List Char) : Option Nat :=
  digits.foldlM
    (fun value digit =>
      if '0' ≤ digit ∧ digit ≤ '9' then
        some (10 * value + (digit.toNat - '0'.toNat))
      else
        none) 0

/-- The digits of a numeral: what follows an optional plus sign. -/
def unsigned : List Char → List Char
  | '+' :: digits => digits
  | digits => digits

/-- Read a number below a limit. -/
def number? (limit : Nat) (text : String) : Option Nat :=
  match unsigned text.toList with
  | [] => none
  | digits => (digitsValue? digits).filter (· < limit)

/-- Read a truth value. -/
def flag? (text : String) : Option Bool :=
  if text = "true" then some true
  else if text = "false" then some false
  else none

end ReadThrough.Settings
