import ReactiveRules.Decimal.Nearest

/-!
# `Decimal/Numeral.lean` — reading decimals

A numeral is an optional sign, digits with an optional point, and an optional exponent. `parse?`
reads one, `Numeral.float` gives the nearest double. Digits without point and exponent are a whole
number, which `whole?` gives exactly.
-/

set_option autoImplicit false

namespace ReactiveRules.Decimal

def isDigit (c : Char) : Bool := '0' ≤ c && c ≤ '9'

def natOfDigits (ds : List Char) : Nat :=
  ds.foldl (fun n c => 10 * n + (c.toNat - '0'.toNat)) 0

/-- A numeral by its parts; the exponent is absent when none was written. -/
structure Numeral where
  negative : Bool
  whole : List Char
  /-- The digits behind the point; absent when there is no point. -/
  fraction : Option (List Char)
  exponent : Option Int
  deriving Repr

/-- Reads `e`, an optional sign and at least one digit. Gives the exponent and what follows. -/
def exponent? : List Char → Option (Int × List Char)
  | [] => none
  | e :: rest =>
    if e == 'e' || e == 'E' then
      let (negative, rest) :=
        match rest with
        | '-' :: r => (true, r)
        | '+' :: r => (false, r)
        | r => (false, r)
      let ds := rest.takeWhile isDigit
      if ds.isEmpty then none
      else
        let n : Int := natOfDigits ds
        some (if negative then -n else n, rest.dropWhile isDigit)
    else none

/-- Splits a text into whole digits, the digits behind a point, and an exponent, as far as they
go. Gives the numeral and what follows it. -/
def scan (negative : Bool) (cs : List Char) : Numeral × List Char :=
  let whole := cs.takeWhile isDigit
  let rest := cs.dropWhile isDigit
  let (fraction, rest) :=
    match rest with
    | '.' :: r => (some (r.takeWhile isDigit), r.dropWhile isDigit)
    | r => (none, r)
  match exponent? rest with
  | some (e, r) => (⟨negative, whole, fraction, some e⟩, r)
  | none => (⟨negative, whole, fraction, none⟩, rest)

/-- The whole number a numeral writes, if it has neither point nor exponent. -/
def Numeral.whole? (n : Numeral) : Option Int :=
  match n.fraction, n.exponent with
  | none, none =>
    let v : Int := natOfDigits n.whole
    some (if n.negative then -v else v)
  | _, _ => none

/-- The double nearest to the numeral. A number of 400 or more places before the point is
infinite, and one whose first digit stands beyond place −400 is zero, so no large power is ever
formed. -/
def Numeral.float (n : Numeral) : Float :=
  let fraction := n.fraction.getD []
  let ds := (n.whole ++ fraction).dropWhile (· == '0')
  let exponent := n.exponent.getD 0 - (fraction.length : Int)
  let place := exponent + (ds.length : Int)
  let magnitude : Float :=
    if ds.isEmpty then 0.0
    else if place > 400 then 1.0 / 0.0
    else if place < -400 then 0.0
    else nearest (Digits.ratio ⟨natOfDigits ds, exponent⟩)
  if n.negative then -magnitude else magnitude

end ReactiveRules.Decimal
