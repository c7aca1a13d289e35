import ReactiveRules.Json.Basic

/-!
# `Json/Fields.lean` — records as JSON objects

A record is read from an object by the names of its fields, or from an array by their order. Fields
that the record does not have are ignored in an object and refused in an array. Whole numbers are
read into the word they are kept in and refused outside its range.
-/

set_option autoImplicit false

namespace ReactiveRules.Json

/-- The fields of a record with these names. An array gives them in order and may end early. -/
def fields? (names : List String) : Json → Option (List (String × Json))
  | .obj fields => some fields
  | .arr items => if items.length ≤ names.length then some (names.zip items) else none
  | _ => none

def lookup? (fields : List (String × Json)) (name : String) : Option Json :=
  (fields.find? (·.1 == name)).map (·.2)

/-- Reads a field that may be absent. -/
def optional? {α : Type} (fields : List (String × Json)) (name : String) (read : Json → Option α)
    (default : α) : Option α :=
  match lookup? fields name with
  | none => some default
  | some v => read v

/-- Reads a field that must be there. -/
def required? {α : Type} (fields : List (String × Json)) (name : String)
    (read : Json → Option α) : Option α :=
  (lookup? fields name).bind read

def uint64? (j : Json) : Option UInt64 :=
  (j.intIn? 0 (UInt64.size - 1)).map fun n => UInt64.ofNat n.toNat

def int64? (j : Json) : Option Int64 :=
  (j.intIn? Int64.minValue.toInt Int64.maxValue.toInt).map Int64.ofInt

def int32? (j : Json) : Option Int32 :=
  (j.intIn? Int32.minValue.toInt Int32.maxValue.toInt).map Int32.ofInt

def ofUInt64 (n : UInt64) : Json := .int n.toNat

def ofInt64 (n : Int64) : Json := .int n.toInt

def ofInt32 (n : Int32) : Json := .int n.toInt

end ReactiveRules.Json
