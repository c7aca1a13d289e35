import ReactiveRules.Decimal.Power

/-!
# `Decimal/Shortest.lean` — the fewest digits that read back

A finite double is `m · 2^q` for natural `m`. The decimals that read back as it form an interval
around it, from half way to the double below to half way to the double above, ends included
exactly when `m` is even. `shortest` finds, by exact arithmetic on natural numbers, the decimal in
that interval with the fewest digits, and of two such decimals the nearer one. Two decimals at the
same distance are settled by `Tie`, which belongs to the format that asks.

Nothing here looks at a `Float` operation other than its bit pattern, so every statement about the
digits is a statement about `m` and `q`.
-/

set_option autoImplicit false

namespace ReactiveRules.Decimal

/-! ## Doubles as integers times powers of two -/

/-- A double by its bit pattern. -/
inductive Double where
  /-- The number `±m · 2^q`; zero has `m = 0` and keeps its sign. -/
  | finite (negative : Bool) (m : Nat) (q : Int)
  | infinite (negative : Bool)
  | nan
  deriving DecidableEq, Repr, Inhabited

/-- The parts of a bit pattern: sign, eleven bits of exponent, 52 bits of fraction. -/
def Double.ofBits (bits : Nat) : Double :=
  let negative := bits / twoTo 63 % 2 == 1
  let exponent : Nat := bits / twoTo 52 % twoTo 11
  let fraction : Nat := bits % twoTo 52
  if exponent == 2047 then
    if fraction == 0 then .infinite negative else .nan
  else if exponent == 0 then .finite negative fraction (-1074)
  else .finite negative (twoTo 52 + fraction) ((exponent : Int) - 1075)

def Double.ofFloat (x : Float) : Double := .ofBits x.toBits.toNat

/-! ## The rounding interval -/

/-- A non-negative fraction by its numerator and denominator. -/
structure Ratio where
  num : Nat
  den : Nat
  deriving Repr

def Ratio.scaled (n : Nat) (q : Int) : Ratio :=
  if q < 0 then ⟨n, twoTo q.natAbs⟩ else ⟨n * twoTo q.natAbs, 1⟩

/-- Which of two decimals at the same distance is taken. -/
inductive Tie where
  /-- The one with the even last digit. -/
  | toEven
  /-- The larger one. -/
  | up
  deriving DecidableEq, Repr

/-- A decimal `digits · 10^exponent`. -/
structure Digits where
  digits : Nat
  exponent : Int
  deriving DecidableEq, Repr, Inhabited

def Digits.ratio (d : Digits) : Ratio :=
  if d.exponent < 0 then ⟨d.digits, tenTo d.exponent.natAbs⟩
  else ⟨d.digits * tenTo d.exponent.natAbs, 1⟩

/-- Does the decimal read back as `m · 2^q`? The interval reaches from half a step below to half a
step above; below a power of two the step is half as wide, except at the least exponent. -/
def readsBack (m : Nat) (q : Int) (d : Digits) : Bool :=
  let below := if m == twoTo 52 && q > -1074 then 1 else 2
  let low := Ratio.scaled (4 * m - below) (q - 2)
  let high := Ratio.scaled (4 * m + 2) (q - 2)
  let x := d.ratio
  let lowSide := low.num * x.den
  let lowHit := x.num * low.den
  let highSide := high.num * x.den
  let highHit := x.num * high.den
  if m % 2 == 0 then lowSide ≤ lowHit && highHit ≤ highSide
  else lowSide < lowHit && highHit < highSide

/-! ## The search -/

/-- The place of the first digit of `num / den`: the `p` with `10^p ≤ num / den < 10^(p+1)`,
found by going up or down from an estimate. -/
def leadingPlace (x : Ratio) : Int :=
  let fits (p : Int) : Bool :=
    if p < 0 then x.den ≤ x.num * tenTo p.natAbs else x.den * tenTo p.natAbs ≤ x.num
  let bits : Int := (x.num.log2 : Int) - (x.den.log2 : Int)
  let start := bits * 30103 / 100000 + 2
  let rec down : Nat → Int → Int
    | 0, p => p
    | fuel + 1, p => if fits p then p else down fuel (p - 1)
  down 8 start

/-- The two neighbours of `x` on the grid of multiples of `10^exponent`, and twice the remainder
against the step, which says which of them is nearer. -/
def neighbours (x : Ratio) (exponent : Int) : Nat × Ordering :=
  let scaled : Ratio :=
    if exponent < 0 then ⟨x.num * tenTo exponent.natAbs, x.den⟩
    else ⟨x.num, x.den * tenTo exponent.natAbs⟩
  let d := scaled.num / scaled.den
  (d, compare (2 * (scaled.num % scaled.den)) scaled.den)

/-- Of the grid's two neighbours of the value, one that reads back; of two, the nearer. -/
def pick (tie : Tie) (m : Nat) (q : Int) (exponent : Int) : Option Digits :=
  let (d, side) := neighbours (Ratio.scaled m q) exponent
  let low : Digits := ⟨d, exponent⟩
  let high : Digits := ⟨d + 1, exponent⟩
  match readsBack m q low, readsBack m q high with
  | false, false => none
  | true, false => some low
  | false, true => some high
  | true, true =>
    match side with
    | .lt => some low
    | .gt => some high
    | .eq =>
      match tie with
      | .up => some high
      | .toEven => some (if d % 2 == 0 then low else high)

def Digits.trim (d : Digits) : Digits :=
  let rec go : Nat → Nat → Int → Digits
    | 0, n, e => ⟨n, e⟩
    | fuel + 1, n, e => if n % 10 == 0 && n != 0 then go fuel (n / 10) (e + 1) else ⟨n, e⟩
  go 20 d.digits d.exponent

/-- The decimal with the fewest digits that reads back as `m · 2^q`, for `m > 0`. Seventeen digits
always read back. -/
def shortest (tie : Tie) (m : Nat) (q : Int) : Digits :=
  let place := leadingPlace (Ratio.scaled m q)
  let found := (List.range 17).findSome? fun (k : Nat) => pick tie m q (place - (k : Int))
  (found.getD ⟨m, q⟩).trim

end ReactiveRules.Decimal
