import ReactiveRules.Decimal.Shortest

/-!
# `Decimal/Nearest.lean` — the double nearest to a fraction

`nearest` rounds an exact fraction to a double: 53 binary digits, fewer near zero, and a fraction
half way between two doubles goes to the one with the even last digit. It is computed on natural
numbers and put together as a bit pattern, so no rounded operation takes part in it.
-/

set_option autoImplicit false

namespace ReactiveRules.Decimal

def Ratio.unscale (x : Ratio) (q : Int) : Ratio :=
  if q < 0 then ⟨x.num * twoTo q.natAbs, x.den⟩ else ⟨x.num, x.den * twoTo q.natAbs⟩

/-- The whole number nearest to the fraction, the even one of two. -/
def Ratio.round (x : Ratio) : Nat :=
  let m := x.num / x.den
  let twice := 2 * (x.num % x.den)
  if twice > x.den || (twice == x.den && m % 2 == 1) then m + 1 else m

/-- The exponent `q` at which the fraction has 53 binary digits before the point, but none below
the least exponent of a double. -/
def Ratio.binaryExponent (x : Ratio) : Int :=
  let q : Int := (x.num.log2 : Int) - (x.den.log2 : Int) - 53
  let y := x.unscale q
  let q := if twoTo 53 ≤ y.num / y.den then q + 1 else q
  max q (-1074)

/-- The bit pattern of `m · 2^q` for `m ≤ 2^53`, infinity if it is too large. -/
def bitsOf (m : Nat) (q : Int) : Nat :=
  let (m, q) := if m == twoTo 53 then (twoTo 52, q + 1) else (m, q)
  if q > 971 then 2047 * twoTo 52
  else if m < twoTo 52 then m
  else (q + 1075).toNat * twoTo 52 + (m - twoTo 52)

/-- The double nearest to a fraction. -/
def nearest (x : Ratio) : Float :=
  if x.num == 0 then 0.0
  else
    let q := x.binaryExponent
    Float.ofBits (bitsOf (x.unscale q).round q).toUInt64

end ReactiveRules.Decimal
