import ReactiveRules.Decimal.Numeral

/-!
# `Decimal/Scaled.lean` — decimals read by one scaling

`Numeral.scaled?` reads a numeral as JSON texts are read: the digits that fit a 64-bit word make a
whole number, which is rounded to a double and then multiplied or divided by one power of ten,
rounding again. It is *not* the nearest double (`Numeral.float`), which can lie a step or two away;
what is lost, and which numbers are too large, follow from this rule alone.
-/

set_option autoImplicit false

namespace ReactiveRules.Decimal

/-- Appends digits to a number as long as it fits a 64-bit word. Gives the number and the digits
left. -/
def fillWord : Nat → List Char → Nat × List Char
  | n, [] => (n, [])
  | n, d :: ds =>
    let next := 10 * n + (d.toNat - '0'.toNat)
    if next < UInt64.size then fillWord next ds else (n, d :: ds)

def powerOfTen (n : Nat) : Float := nearest ⟨tenTo n, 1⟩

/-- The double times a power of ten. Doubles know the powers up to 308: a larger one is out of
range, and a division by a larger one is done in steps until nothing is left. -/
def scaleByTen? (x : Float) (exponent : Int) : Option Float :=
  if x == 0.0 then some x
  else if exponent > 308 then none
  else if 0 ≤ exponent then
    let y := x * powerOfTen exponent.natAbs
    if y.isInf then none else some y
  else if -308 ≤ exponent then some (x / powerOfTen exponent.natAbs)
  else scaleByTen? (x / powerOfTen 308) (exponent + 308)
termination_by exponent.natAbs
decreasing_by omega

/-- The double of a numeral by one scaling; no answer if it is out of range. Digits before the
point that do not fit the word count as powers of ten, those behind the point are dropped. -/
def Numeral.scaled? (n : Numeral) : Option Float :=
  let fraction := n.fraction.getD []
  let (word, left) := fillWord 0 n.whole
  let (word, dropped) := fillWord word fraction
  let places := (left.length : Int) - (fraction.length - dropped.length : Nat)
  let magnitude := scaleByTen? (nearest ⟨word, 1⟩) (places + n.exponent.getD 0)
  if n.negative then magnitude.map fun x => -x else magnitude

end ReactiveRules.Decimal
