import ReactiveRules.Decimal.Layout
import ReactiveRules.Json.Writer
import ReactiveRules.Text.Quoted

/-!
# `Script/Value.lean` — the values of scripts

A script computes with texts, doubles, 64-bit integers, booleans, tuples and the empty value. Each
value has two texts: `display` is for the reader of a script's result, `describe` names the kind of
every part and is used in error messages. JSON values become script values by `ofJson` and come
back by `toJson`; an array is a tuple, `null` is the empty value, and an object is its JSON text.
-/

set_option autoImplicit false

namespace ReactiveRules.Script

inductive Value where
  | text (s : String)
  | float (x : Float)
  | int (n : Int64)
  | bool (b : Bool)
  | tuple (items : List Value)
  | empty
  deriving Inhabited

inductive Kind where
  | text
  | float
  | int
  | bool
  | tuple
  | empty
  deriving DecidableEq, Repr

namespace Kind

/-- The name of a kind in error messages. -/
def name : Kind → String
  | .text => "String"
  | .float => "Float"
  | .int => "Int"
  | .bool => "Boolean"
  | .tuple => "Tuple"
  | .empty => "Empty"

/-- The name that a script sees. -/
def scriptName : Kind → String
  | .text => "string"
  | .float => "float"
  | .int => "int"
  | .bool => "boolean"
  | .tuple => "tuple"
  | .empty => "empty"

end Kind

namespace Value

def kind : Value → Kind
  | .text _ => .text
  | .float _ => .float
  | .int _ => .int
  | .bool _ => .bool
  | .tuple _ => .tuple
  | .empty => .empty

/-! ## Equality

Values are equal part by part. An integer is never equal to a double, and a double that is no
number is not equal to itself. -/

mutual

def same : Value → Value → Bool
  | .text a, .text b => a == b
  | .float a, .float b => a == b
  | .int a, .int b => a == b
  | .bool a, .bool b => a == b
  | .tuple as, .tuple bs => sameItems as bs
  | .empty, .empty => true
  | _, _ => false

def sameItems : List Value → List Value → Bool
  | [], [] => true
  | a :: as, b :: bs => same a b && sameItems as bs
  | _, _ => false

end

/-! ## The two texts -/

/-- Doubles in a script's result: always positional, without a needless point. -/
def displayLayout : Decimal.Layout := ⟨none, false, false, .up⟩

/-- Doubles in error messages: positional from `1e-4` up to below `1e16`, always recognisable as
doubles. -/
def describeLayout : Decimal.Layout := ⟨some (-4, 16), true, false, .up⟩

mutual

/-- The text of a value in a script's result. Texts stand between quotes as they are. -/
def display : Value → String
  | .text s => "\"" ++ s ++ "\""
  | .float x => displayLayout.float x
  | .int n => toString n.toInt
  | .bool b => if b then "true" else "false"
  | .tuple items => "(" ++ ", ".intercalate (displayItems items) ++ ")"
  | .empty => "()"

def displayItems : List Value → List String
  | [] => []
  | v :: rest => v.display :: displayItems rest

end

mutual

/-- The text of a value in an error message: its kind and its content. -/
def describe : Value → String
  | .text s => "String(" ++ Text.quoted s ++ ")"
  | .float x => "Float(" ++ describeLayout.float x ++ ")"
  | .int n => "Int(" ++ toString n.toInt ++ ")"
  | .bool b => if b then "Boolean(true)" else "Boolean(false)"
  | .tuple items => "Tuple([" ++ ", ".intercalate (describeItems items) ++ "])"
  | .empty => "Empty"

def describeItems : List Value → List String
  | [] => []
  | v :: rest => v.describe :: describeItems rest

end

/-! ## Conversion from and to JSON -/

/-- The value of a whole number: an integer if it fits 64 bits, else the nearest double. -/
def ofInt (n : Int) : Value :=
  if Int64.minValue.toInt ≤ n && n ≤ Int64.maxValue.toInt then .int (Int64.ofInt n)
  else .float (Float.ofInt n)

mutual

/-- The script value of a JSON value. -/
def ofJson : Json → Value
  | .null => .empty
  | .bool b => .bool b
  | .int n => ofInt n
  | .float x => .float x
  | .str s => .text s
  | .arr items => .tuple (ofJsonItems items)
  | .obj fields => .text (Json.write (.obj fields))

def ofJsonItems : List Json → List Value
  | [] => []
  | item :: rest => ofJson item :: ofJsonItems rest

end

mutual

/-- The JSON value of a script value. A double that is no finite number becomes `null`. -/
def toJson : Value → Json
  | .text s => .str s
  | .float x => if x.isFinite then .float x else .null
  | .int n => .int n.toInt
  | .bool b => .bool b
  | .tuple items => .arr (toJsonItems items)
  | .empty => .null

def toJsonItems : List Value → List Json
  | [] => []
  | v :: rest => v.toJson :: toJsonItems rest

end

end Value

end ReactiveRules.Script
