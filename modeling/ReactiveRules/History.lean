import ReactiveRules.Json.Fields
import ReactiveRules.Trigger

/-!
# `History.lean` — the latest runs

Every run that was not vetoed leaves a record. A history keeps the latest of them, up to its
capacity, oldest first.

A record on the wire also says when its run ended. That time is of the calendar and not kept here.
-/

set_option autoImplicit false

namespace ReactiveRules

/-- What a run left behind. -/
structure RunRecord where
  rule : String
  label : String
  aspect : Aspect
  /-- The condition held; false if it could not be evaluated. -/
  condition : Bool
  /-- The action was attempted. -/
  executed : Bool
  success : Bool
  error : Option String
  /-- How long the run took, in milliseconds. -/
  duration : UInt64
  deriving DecidableEq, Repr, Inhabited

namespace RunRecord

/-- The names of the fields that are kept. -/
def names : List String :=
  ["rule_id", "label", "evaluation_type", "condition", "executed", "success", "error", "duration_ms"]

def toJson (r : RunRecord) : Json :=
  Json.object
    [("rule_id", .str r.rule), ("label", .str r.label), ("evaluation_type", r.aspect.toJson),
     ("condition", .bool r.condition), ("executed", .bool r.executed),
     ("success", .bool r.success),
     ("error", match r.error with | some e => .str e | none => .null),
     ("duration_ms", Json.ofUInt64 r.duration)]

def textOrNull? : Json → Option (Option String)
  | .null => some none
  | .str s => some (some s)
  | _ => none

/-- The fields of a record on the wire, the last of which is the time, which is not looked at. An object
may do without it here; an array has no names to tell which value is missing and has to be complete. -/
def fields? : Json → Option (List (String × Json))
  | .arr items =>
    if items.length = names.length + 1 then Json.fields? (names ++ ["timestamp"]) (.arr items) else none
  | j => Json.fields? (names ++ ["timestamp"]) j

/-- Reads a record. Of an object only the error may be absent. -/
def ofJson? (j : Json) : Option RunRecord := do
  let fs ← fields? j
  let rule ← Json.required? fs "rule_id" Json.str?
  let label ← Json.required? fs "label" Json.str?
  let aspect ← Json.required? fs "evaluation_type" Aspect.ofJson?
  let condition ← Json.required? fs "condition" Json.bool?
  let executed ← Json.required? fs "executed" Json.bool?
  let success ← Json.required? fs "success" Json.bool?
  let error ← Json.optional? fs "error" textOrNull? none
  let duration ← Json.required? fs "duration_ms" Json.uint64?
  some { rule, label, aspect, condition, executed, success, error, duration }

end RunRecord

/-- The latest records, oldest first. -/
structure History where
  capacity : Nat
  records : List RunRecord := []
  deriving Repr, Inhabited

namespace History

/-- Drops the oldest records until there is room for one more. -/
def makeRoom (capacity : Nat) : List RunRecord → List RunRecord
  | [] => []
  | r :: rest => if capacity ≤ rest.length + 1 then makeRoom capacity rest else r :: rest

/-- Adds a record; the oldest make room. A history without capacity takes none. -/
def push (h : History) (r : RunRecord) : History :=
  if h.capacity == 0 then h
  else { h with records := makeRoom h.capacity h.records ++ [r] }

def clear (h : History) : History := { h with records := [] }

def ofRule (h : History) (rule : String) : List RunRecord := h.records.filter (·.rule == rule)

end History

end ReactiveRules
