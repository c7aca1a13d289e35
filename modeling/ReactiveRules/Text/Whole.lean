import ReactiveRules.Decimal.Numeral

/-!
# `Text/Whole.lean` — whole numbers in settings and scripts

An integer is written as an optional sign and at least one ASCII digit, nothing else. The minus
sign is read only where negative numbers are allowed, and the value must lie between the bounds.
-/

set_option autoImplicit false

namespace ReactiveRules.Text

/-- The value of a text of at least one digit. -/
def natOfChars? (cs : List Char) : Option Nat :=
  if !cs.isEmpty && cs.all Decimal.isDigit then some (Decimal.natOfDigits cs) else none

/-- The integer that the characters write, if it lies between the bounds. Where the lower bound is
zero there are no negative numbers and no minus sign. -/
def intOfChars? (low high : Int) (cs : List Char) : Option Int :=
  let value? : Option Int :=
    match cs with
    | '+' :: ds => (natOfChars? ds).map Int.ofNat
    | '-' :: ds => if low < 0 then (natOfChars? ds).map fun n => -(n : Int) else none
    | ds => (natOfChars? ds).map Int.ofNat
  match value? with
  | some v => if low ≤ v && v ≤ high then some v else none
  | none => none

end ReactiveRules.Text
