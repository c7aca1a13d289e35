import ReactiveRules.Decimal.Shortest

/-!
# `Decimal/Layout.lean` — how a double is written

`Decimal.shortest` gives the digits; a `Layout` says how they are set: where positional notation
ends, whether an integral number keeps a fraction, and how an exponent is written. Each text of a
double in this library is one `Layout`, kept in the module that writes that text.
-/

set_option autoImplicit false

namespace ReactiveRules.Decimal

/-- The decisions of one format for doubles. -/
structure Layout where
  /-- Places of the first digit that are written positionally: from the first bound, below the
  second. Without bounds every number is positional. -/
  positional : Option (Int × Int)
  /-- An integral number in positional notation ends in `.0`. -/
  keepFraction : Bool
  /-- A positive exponent carries a plus sign. -/
  plusExponent : Bool
  tie : Tie

def digitsOf (n : Nat) : List Char := Nat.toDigits 10 n

/-- Positional notation of digits whose first stands at place `place`. -/
def positionalText (keepFraction : Bool) (ds : List Char) (place : Int) : List Char :=
  if place < 0 then
    '0' :: '.' :: List.replicate (place.natAbs - 1) '0' ++ ds
  else
    let width := place.natAbs + 1
    let whole := ds.take width ++ List.replicate (width - ds.length) '0'
    match ds.drop width with
    | [] => if keepFraction then whole ++ ['.', '0'] else whole
    | fraction => whole ++ '.' :: fraction

/-- One digit, the others behind a point, and the exponent. -/
def exponentText (plus : Bool) (ds : List Char) (place : Int) : List Char :=
  let sign := if place < 0 then ['-'] else if plus then ['+'] else []
  let exponent := 'e' :: sign ++ digitsOf place.natAbs
  match ds with
  | [] => exponent
  | [d] => d :: exponent
  | d :: rest => d :: '.' :: rest ++ exponent

/-- The text of a double: the fewest digits that read back, set as the layout says. -/
def Layout.text (l : Layout) : Double → String
  | .nan => "NaN"
  | .infinite negative => if negative then "-inf" else "inf"
  | .finite negative m q =>
    let body :=
      if m == 0 then positionalText l.keepFraction ['0'] 0
      else
        let d := shortest l.tie m q
        let ds := digitsOf d.digits
        let place := d.exponent + (ds.length : Int) - 1
        let isPositional :=
          match l.positional with
          | none => true
          | some (low, high) => low ≤ place && place < high
        if isPositional then positionalText l.keepFraction ds place
        else exponentText l.plusExponent ds place
    String.ofList (if negative then '-' :: body else body)

def Layout.float (l : Layout) (x : Float) : String := l.text (.ofFloat x)

end ReactiveRules.Decimal
