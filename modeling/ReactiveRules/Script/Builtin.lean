import ReactiveRules.Script.Numeric
import ReactiveRules.Script.Process
import ReactiveRules.Text.Blank
import ReactiveRules.Text.Case

/-!
# `Script/Builtin.lean` — the functions every script has

A function takes one value; several arguments are a tuple. `builtin?` gives the function of a name.
Texts are measured and cut by the bytes of their UTF-8 form. A cut inside a character breaks the
script off.

That a shift by as many places as an integer has (`shl`, `shr`) and the absolute value of the least
integer (`math::abs`) break the script off too is so in a build that checks integers for overflow, and
such a build is assumed here. In one that does not, they would wrap around.
-/

set_option autoImplicit false

namespace ReactiveRules.Script

/-- A function of scripts. -/
abbrev Builtin := Value → Process (Except Fault Value)

namespace Builtin

/-- A function that asks nothing of its surroundings. -/
def plain (f : Value → Except Fault Value) : Builtin := fun v => .done (f v)

/-! ## Numbers -/

/-- A function from numbers to doubles. -/
def ofFloat (f : Float → Float) : Builtin :=
  plain fun v => do .ok (.float (f (← v.number)))

def ofTest (f : Float → Bool) : Builtin :=
  plain fun v => do .ok (.bool (f (← v.number)))

def ofFloats (f : Float → Float → Float) : Builtin :=
  plain fun v => do
    let (a, b) ← v.pair
    let x ← a.number
    let y ← b.number
    .ok (.float (f x y))

def integers (v : Value) : Except Fault (Int64 × Int64) := do
  let (a, b) ← v.pair
  let m ← a.integer
  let n ← b.integer
  .ok (m, n)

def ofInts (f : Int64 → Int64 → Int64) : Builtin :=
  plain fun v => do
    let (m, n) ← integers v
    .ok (.int (f m n))

/-- A shift of the first integer by as many places as the second one says. An integer has 64 places;
a shift by that many, by more or by a negative number breaks the script off. -/
def shift (direction : String) (f : Int64 → Int64 → Int64) : Builtin := fun v =>
  match integers v with
  | .error e => .done (.error e)
  | .ok (m, n) =>
    if 0 ≤ n.toInt && n.toInt < 64 then .done (.ok (.int (f m n)))
    else .panicked ("attempt to shift " ++ direction ++ " with overflow")

/-- The absolute value, of the kind of the number. The least integer has none, and asking for it
breaks the script off. -/
def absolute : Builtin := fun v =>
  match v with
  | .float x => .done (.ok (.float x.abs))
  | .int n =>
    if n == Int64.minValue then .panicked "attempt to negate with overflow"
    else .done (.ok (.int n.abs))
  | v => .done (.error (.unwanted .number v))

/-- Runs through numbers with the best integer and the best double so far. -/
def extremeOf (better : Float → Float → Bool) (betterInt : Int64 → Int64 → Bool) :
    List Value → Int64 → Float → Except Fault Value
  | [], n, x => .ok (if better n.toFloat x then .int n else .float x)
  | .float y :: rest, n, x => extremeOf better betterInt rest n (if better y x then y else x)
  | .int m :: rest, n, x => extremeOf better betterInt rest (if betterInt m n then m else n) x
  | v :: _, _, _ => .error (.unwanted .number v)

/-- The least number of a tuple. The least integer stands against the least double; where they are
equal, the double is taken. -/
def least : Builtin :=
  plain fun v => do
    extremeOf (· < ·) (· < ·) (← v.items) Int64.maxValue (1.0 / 0.0)

def greatest : Builtin :=
  plain fun v => do
    extremeOf (· > ·) (· > ·) (← v.items) Int64.minValue (-1.0 / 0.0)

/-! ## Tuples -/

/-- The second or third item of a triple, as the first one says. -/
def choose : Builtin :=
  plain fun v =>
    match v with
    | .tuple [c, a, b] => do .ok (if ← c.truth then a else b)
    | .tuple vs => .error (.unwanted (.tupleOf 3) (.tuple vs))
    | v => .error (.unwanted (.kind .tuple) v)

/-- The kinds that can be looked for in a tuple. -/
def searchable : List Kind := [.text, .int, .float, .bool]

def checkSearchable (v : Value) : Except Fault Unit :=
  if searchable.contains v.kind then .ok () else .error (.unwanted (.oneOf searchable) v)

def contains : Builtin :=
  plain fun v => do
    let (a, b) ← v.pair
    let items ← a.items
    checkSearchable b
    .ok (.bool (items.any (·.same b)))

/-- Does the first tuple hold an item of the second? -/
def containsAny : Builtin :=
  plain fun v => do
    let (a, b) ← v.pair
    let items ← a.items
    let wanted ← b.items
    wanted.forM checkSearchable
    .ok (.bool (wanted.any fun w => items.any (·.same w)))

/-- The number of bytes of a text, or of items of a tuple. -/
def length : Builtin :=
  plain fun v =>
    match v with
    | .text s => .ok (.int (Int64.ofNat s.utf8ByteSize))
    | .tuple vs => .ok (.int (Int64.ofNat vs.length))
    | v => .error (.unwanted (.oneOf [.text, .tuple]) v)

/-! ## Texts -/

def ofText (f : String → String) : Builtin :=
  plain fun v => do .ok (.text (f (← v.string)))

/-- The text of a value; a text is itself. -/
def toText : Builtin :=
  plain fun v =>
    match v with
    | .text s => .ok (.text s)
    | v => .ok (.text v.display)

/-- The characters up to a byte offset and those behind it; no answer inside a character. -/
def splitBytes? : Nat → List Char → Option (List Char × List Char)
  | 0, cs => some ([], cs)
  | _ + 1, [] => none
  | n + 1, c :: cs =>
    if c.utf8Size ≤ n + 1 then
      (splitBytes? (n + 1 - c.utf8Size) cs).map fun (front, back) => (c :: front, back)
    else none
termination_by _ cs => cs.length

/-- The character that a byte offset lies in, and the offset of its first byte. -/
def charAt : Nat → Nat → List Char → Char × Nat
  | start, _, [] => (' ', start)
  | start, offset, c :: cs =>
    if offset < start + c.utf8Size then (c, start) else charAt (start + c.utf8Size) offset cs

def quotedChar (c : Char) : String :=
  let inner := if c == '"' then ['"'] else if c == '\'' then ['\\', '\''] else Text.quoteChar c
  String.ofList ('\'' :: inner ++ ['\''])

/-- Why a cut breaks off at the byte offset where it starts or ends. -/
def cutMessage (edge : String) (offset : Nat) (s : String) : String :=
  let (c, start) := charAt 0 offset s.toList
  edge ++ " byte index " ++ toString offset ++ " is not a char boundary; it is inside " ++
    quotedChar c ++ " (bytes " ++ toString start ++ ".." ++ toString (start + c.utf8Size) ++
    " of string)"

/-- The bytes of a text from one offset to another. -/
def slice (s : String) (low high : Nat) : Process (Except Fault Value) :=
  match splitBytes? low s.toList with
  | none => .panicked (cutMessage "start" low s)
  | some (_, rest) =>
    match splitBytes? (high - low) rest with
    | none => .panicked (cutMessage "end" high s)
    | some (part, _) => .done (.ok (.text (String.ofList part)))

/-- The arguments of a cut: a text, a first offset, and maybe a last one. -/
def sliceParts : Value → Except Fault (Value × Value × Option Value)
  | .tuple [a, b] => .ok (a, b, none)
  | .tuple [a, b, c] => .ok (a, b, some c)
  | .tuple vs => .error (.unwanted (.tupleBetween 2 3) (.tuple vs))
  | v => .error (.unwanted (.kind .tuple) v)

/-- The offset that a value gives; there are no negative offsets. -/
def offset (v : Value) : Except Fault Nat := do
  let n ← v.integer
  if n.toInt < 0 then .error .outOfBounds else .ok n.toInt.toNat

/-- The text, the first offset and the offset behind the last byte of a cut. -/
def sliceArguments (v : Value) : Except Fault (String × Nat × Nat) := do
  let (subject, first, last?) ← sliceParts v
  let s ← subject.string
  let low ← offset first
  let high ←
    match last? with
    | some last => offset last
    | none => .ok s.utf8ByteSize
  if low > high || high > s.utf8ByteSize then .error .outOfBounds else .ok (s, low, high)

def substring : Builtin := fun v =>
  match sliceArguments v with
  | .error f => .done (.error f)
  | .ok (s, low, high) => slice s low high

end Builtin

def builtin? (name : String) : Option Builtin :=
  match name with
  | "math::ln" => some (.ofFloat Float.log)
  | "math::log" => some (.ofFloats fun x base => Float.log x / Float.log base)
  | "math::log2" => some (.ofFloat Float.log2)
  | "math::log10" => some (.ofFloat Float.log10)
  | "math::exp" => some (.ofFloat Float.exp)
  | "math::exp2" => some (.ofFloat Float.exp2)
  | "math::pow" => some (.ofFloats Float.pow)
  | "math::cos" => some (.ofFloat Float.cos)
  | "math::acos" => some (.ofFloat Float.acos)
  | "math::cosh" => some (.ofFloat Float.cosh)
  | "math::acosh" => some (.ofFloat Float.acosh)
  | "math::sin" => some (.ofFloat Float.sin)
  | "math::asin" => some (.ofFloat Float.asin)
  | "math::sinh" => some (.ofFloat Float.sinh)
  | "math::asinh" => some (.ofFloat Float.asinh)
  | "math::tan" => some (.ofFloat Float.tan)
  | "math::atan" => some (.ofFloat Float.atan)
  | "math::tanh" => some (.ofFloat Float.tanh)
  | "math::atanh" => some (.ofFloat Float.atanh)
  | "math::atan2" => some (.ofFloats Float.atan2)
  | "math::sqrt" => some (.ofFloat Float.sqrt)
  | "math::cbrt" => some (.ofFloat cubeRoot)
  | "math::hypot" => some (.ofFloats hypotenuse)
  | "math::is_nan" => some (.ofTest Float.isNaN)
  | "math::is_finite" => some (.ofTest Float.isFinite)
  | "math::is_infinite" => some (.ofTest Float.isInf)
  | "math::is_normal" => some (.ofTest isNormal)
  | "math::abs" => some .absolute
  | "floor" => some (.ofFloat Float.floor)
  | "round" => some (.ofFloat Float.round)
  | "ceil" => some (.ofFloat Float.ceil)
  | "typeof" => some (.plain fun v => .ok (.text v.kind.scriptName))
  | "min" => some .least
  | "max" => some .greatest
  | "if" => some .choose
  | "contains" => some .contains
  | "contains_any" => some .containsAny
  | "len" => some .length
  | "str::to_lowercase" => some (.ofText Text.lower)
  | "str::to_uppercase" => some (.ofText Text.upper)
  | "str::trim" => some (.ofText Text.trim)
  | "str::from" => some .toText
  | "str::substring" => some .substring
  | "bitand" => some (.ofInts (· &&& ·))
  | "bitor" => some (.ofInts (· ||| ·))
  | "bitxor" => some (.ofInts (· ^^^ ·))
  | "bitnot" => some (.plain fun v => do .ok (.int (~~~(← v.integer))))
  | "shl" => some (.shift "left" (· <<< ·))
  | "shr" => some (.shift "right" (· >>> ·))
  | _ => none

end ReactiveRules.Script
