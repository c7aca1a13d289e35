import ReactiveRules.Decimal.Nearest
import ReactiveRules.Script.Token

/-!
# `Script/Numeric.lean` — arithmetic of scripts

Integers are checked: a result outside 64 bits is a fault, and so is a division by zero. As soon
as one operand is a double, the operation is that of doubles.
-/

set_option autoImplicit false

namespace ReactiveRules.Script

/-! ## Integers -/

def fit? (n : Int) : Option Int64 :=
  if Int64.minValue.toInt ≤ n && n ≤ Int64.maxValue.toInt then some (Int64.ofInt n) else none

/-- The result of an operation on integers. Division goes toward zero, and the remainder has the
sign of the dividend; where the quotient does not fit, there is no remainder either. -/
def Arithmetic.onInts? (op : Arithmetic) (a b : Int64) : Option Int64 :=
  match op with
  | .add => fit? (a.toInt + b.toInt)
  | .subtract => fit? (a.toInt - b.toInt)
  | .multiply => fit? (a.toInt * b.toInt)
  | .divide => if b.toInt == 0 then none else fit? (a.toInt.tdiv b.toInt)
  | .modulo =>
    if b.toInt == 0 then none
    else (fit? (a.toInt.tdiv b.toInt)).bind fun _ => fit? (a.toInt.tmod b.toInt)

/-! ## Doubles -/

/-- The remainder of a division of doubles, with the sign of the dividend. It is exact: both
numbers are multiples of the finer of their two units. -/
def floatRemainder (x y : Float) : Float :=
  match Decimal.Double.ofFloat x, Decimal.Double.ofFloat y with
  | .finite negative m p, .finite _ n q =>
    if n == 0 then 0.0 / 0.0
    else
      let unit := min p q
      let a := m * Decimal.twoTo (p - unit).natAbs
      let b := n * Decimal.twoTo (q - unit).natAbs
      let r := Decimal.nearest (Decimal.Ratio.scaled (a % b) unit)
      if negative then -r else r
  | .finite .., .infinite _ => x
  | _, _ => 0.0 / 0.0

def Arithmetic.onFloats (op : Arithmetic) (x y : Float) : Float :=
  match op with
  | .add => x + y
  | .subtract => x - y
  | .multiply => x * y
  | .divide => x / y
  | .modulo => floatRemainder x y

/-- The hypotenuse over `a ≥ b ≥ 0` whose squares stay within the range of doubles: the root of the
rounded sum of squares, less what is left of `h² - a² - b²` over the slope `2h`. What is left is
put together from small differences, so the step makes good nearly all of the rounding. -/
def hypotenuseStep (a b : Float) : Float :=
  let h := Float.sqrt (a * a + b * b)
  let rest :=
    if h ≤ 2.0 * b then
      let d := h - b
      a * (2.0 * d - a) + (d - 2.0 * (a - b)) * d
    else
      let d := h - a
      2.0 * d * (a - 2.0 * b) + ((4.0 * d - b) * b + d * d)
  h - rest / (2.0 * h)

/-- The length of the hypotenuse over two sides. Sides whose squares would overflow or vanish are
scaled first, and a side too short to count is added as it is. An infinite side outweighs one that
is no number. -/
def hypotenuse (x y : Float) : Float :=
  if x.isInf || y.isInf then 1.0 / 0.0
  else if x.isNaN || y.isNaN then x + y
  else
    let a := if x.abs < y.abs then y.abs else x.abs
    let b := if x.abs < y.abs then x.abs else y.abs
    let scale := Float.scaleB 1.0 (-600)
    let negligible := Float.scaleB 1.0 (-54)
    if a > Float.scaleB 1.0 511 then
      if b ≤ a * negligible then a + b else hypotenuseStep (a * scale) (b * scale) / scale
    else if b < Float.scaleB 1.0 (-459) then
      if a ≥ b / negligible then a + b else hypotenuseStep (a / scale) (b / scale) * scale
    else if b ≤ a * negligible then a + b
    else hypotenuseStep a b

/-- The whole cube root of a natural number, by Newton's method from above. -/
def wholeCubeRoot (n : Nat) : Nat :=
  let rec go : Nat → Nat → Nat
    | 0, r => r
    | fuel + 1, r =>
      let next := (2 * r + n / (r * r)) / 3
      if next < r then go fuel next else r
  if n == 0 then 0 else go (n.log2 + 2) (Decimal.twoTo (n.log2 / 3 + 1))

/-- The double nearest to the cube root. -/
def cubeRoot (x : Float) : Float :=
  match Decimal.Double.ofFloat x with
  | .finite negative m q =>
    if m == 0 then x
    else
      let cube := m * Decimal.twoTo (q % 3).toNat * Decimal.twoTo 192
      let root := wholeCubeRoot cube
      -- One more binary digit tells a root that is not exact from its neighbour below.
      let exact := root * root * root == cube
      let y := Decimal.nearest
        (Decimal.Ratio.scaled (2 * root + (if exact then 0 else 1)) (q / 3 - 65))
      if negative then -y else y
  | _ => x

/-- Is the double a number of full precision: neither zero nor too small, nor infinite, nor no
number? -/
def isNormal (x : Float) : Bool :=
  let exponent := (x.toBits >>> 52) &&& 2047
  exponent != 0 && exponent != 2047

/-! ## Values as operands -/

def Value.number (v : Value) : Except Fault Float :=
  match v with
  | .float x => .ok x
  | .int n => .ok n.toFloat
  | v => .error (.unwanted .number v)

def Value.integer (v : Value) : Except Fault Int64 :=
  match v with
  | .int n => .ok n
  | v => .error (.unwanted (.kind .int) v)

def Value.truth (v : Value) : Except Fault Bool :=
  match v with
  | .bool b => .ok b
  | v => .error (.unwanted (.kind .bool) v)

def Value.string (v : Value) : Except Fault String :=
  match v with
  | .text s => .ok s
  | v => .error (.unwanted (.kind .text) v)

def Value.items (v : Value) : Except Fault (List Value) :=
  match v with
  | .tuple vs => .ok vs
  | v => .error (.unwanted (.kind .tuple) v)

def Value.pair (v : Value) : Except Fault (Value × Value) :=
  match v with
  | .tuple [a, b] => .ok (a, b)
  | .tuple vs => .error (.unwanted (.tupleOf 2) (.tuple vs))
  | v => .error (.unwanted (.kind .tuple) v)

/-- A text or a number. -/
def Value.summand (v : Value) : Except Fault Unit :=
  match v with
  | .text _ | .float _ | .int _ => .ok ()
  | v => .error (.unwanted .numberOrText v)

/-! ## Operators -/

/-- Subtraction, multiplication, division and remainder of numbers. -/
def arithmetic (op : Arithmetic) (a b : Value) : Except Fault Value := do
  let x ← a.number
  let y ← b.number
  match a, b with
  | .int m, .int n =>
    match op.onInts? m n with
    | some r => .ok (.int r)
    | none => .error (.arithmetic op a b)
  | _, _ => .ok (.float (op.onFloats x y))

/-- Texts are joined and numbers added; the two do not mix. -/
def sum (a b : Value) : Except Fault Value := do
  a.summand
  b.summand
  match a, b with
  | .text s, .text t => .ok (.text (s ++ t))
  | .text _, _ => .error (.mixedSum a.kind b.kind)
  | _, .text _ => .error (.mixedSum a.kind b.kind)
  | _, _ => arithmetic .add a b

/-- Texts compare by their characters, integers as integers, other numbers as doubles. -/
def ordering (texts : String → String → Bool) (ints : Int64 → Int64 → Bool)
    (floats : Float → Float → Bool) (a b : Value) : Except Fault Value := do
  a.summand
  b.summand
  match a, b with
  | .text s, .text t => .ok (.bool (texts s t))
  | .int m, .int n => .ok (.bool (ints m n))
  | _, _ => do
    let x ← a.number
    let y ← b.number
    .ok (.bool (floats x y))

def Binary.apply (op : Binary) (a b : Value) : Except Fault Value :=
  match op with
  | .add => sum a b
  | .subtract => arithmetic .subtract a b
  | .multiply => arithmetic .multiply a b
  | .divide => arithmetic .divide a b
  | .modulo => arithmetic .modulo a b
  | .power => do
    let x ← a.number
    let y ← b.number
    .ok (.float (Float.pow x y))
  | .equal => .ok (.bool (a.same b))
  | .unequal => .ok (.bool (!a.same b))
  | .greater => ordering (· > ·) (· > ·) (· > ·) a b
  | .less => ordering (· < ·) (· < ·) (· < ·) a b
  | .atLeast => ordering (fun s t => !(s < t)) (· ≥ ·) (· ≥ ·) a b
  | .atMost => ordering (fun s t => !(t < s)) (· ≤ ·) (· ≤ ·) a b
  | .and => do
    let x ← a.truth
    let y ← b.truth
    .ok (.bool (x && y))
  | .or => do
    let x ← a.truth
    let y ← b.truth
    .ok (.bool (x || y))

def negate (v : Value) : Except Fault Value := do
  let x ← v.number
  match v with
  | .int n =>
    match fit? (-n.toInt) with
    | some r => .ok (.int r)
    | none => .error (.negation v)
  | _ => .ok (.float (-x))

end ReactiveRules.Script
