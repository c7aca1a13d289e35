/-!
# `Json/Basic.lean` — JSON values

The data of the outside world: fact values, arguments of commands, settings, events. Whole numbers
and doubles are kept apart, because `1` and `1.0` are different values to a script. An object is a
list of fields in the order of their names; `insertField` keeps that order and lets the last value
of a name win.
-/

set_option autoImplicit false

namespace ReactiveRules

inductive Json where
  | null
  | bool (b : Bool)
  | int (n : Int)
  | float (x : Float)
  | str (s : String)
  | arr (items : List Json)
  | obj (fields : List (String × Json))
  deriving Inhabited

namespace Json

/-- Puts a field in its place by name; a field of that name is replaced. -/
def insertField (name : String) (value : Json) : List (String × Json) → List (String × Json)
  | [] => [(name, value)]
  | (other, v) :: rest =>
    if name < other then (name, value) :: (other, v) :: rest
    else if name == other then (name, value) :: rest
    else (other, v) :: insertField name value rest

/-- An object of the given fields, in the order of their names. -/
def object (fields : List (String × Json)) : Json :=
  .obj (fields.foldl (fun acc f => insertField f.1 f.2 acc) [])

/-- The value of a field; `none` for a value that is no object. -/
def field? (name : String) : Json → Option Json
  | .obj fields => (fields.find? (·.1 == name)).map (·.2)
  | _ => none

/-! ## Reading one kind of value -/

def str? : Json → Option String
  | .str s => some s
  | _ => none

def bool? : Json → Option Bool
  | .bool b => some b
  | _ => none

/-- The value of a whole number between the bounds, ends included. -/
def intIn? (low high : Int) : Json → Option Int
  | .int n => if low ≤ n && n ≤ high then some n else none
  | _ => none

def arr? : Json → Option (List Json)
  | .arr items => some items
  | _ => none

end Json

end ReactiveRules
