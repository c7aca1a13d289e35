import ReactiveRules.Json.Fields

/-!
# `Broadcast/Event.lean` — what is told about rules

An event tells that a condition was evaluated, an action finished, or a run failed.
-/

set_option autoImplicit false

namespace ReactiveRules

/-- What an event tells. -/
inductive EventKind where
  | evaluated (conditionMet : Bool)
  | executed (duration : UInt64)
  | failed (error : String)
  deriving DecidableEq, Repr, Inhabited

structure RuleEvent where
  rule : String
  label : String
  node : String
  kind : EventKind
  timestamp : Int64
  deriving DecidableEq, Repr, Inhabited

namespace RuleEvent

def typeName (e : RuleEvent) : String :=
  match e.kind with
  | .evaluated _ => "RuleEvaluated"
  | .executed _ => "RuleExecuted"
  | .failed _ => "RuleFailed"

def isFailure (e : RuleEvent) : Bool :=
  match e.kind with
  | .failed _ => true
  | _ => false

/-- The field that only this kind of event has. -/
def kindField (e : RuleEvent) : String × Json :=
  match e.kind with
  | .evaluated met => ("condition_met", .bool met)
  | .executed duration => ("duration_ms", Json.ofUInt64 duration)
  | .failed error => ("error", .str error)

/-- The JSON value of an event, with the name of its kind as a field. -/
def toJson (e : RuleEvent) : Json :=
  Json.object
    [("type", .str e.typeName), ("rule_id", .str e.rule), ("rule_label", .str e.label),
     ("node", .str e.node), e.kindField, ("timestamp", Json.ofInt64 e.timestamp)]

/-- The field of a kind by the kind's name, and how to read it. -/
def kindReader? : String → Option (String × (Json → Option EventKind))
  | "RuleEvaluated" => some ("condition_met", fun j => j.bool?.map .evaluated)
  | "RuleExecuted" => some ("duration_ms", fun j => j.uint64?.map .executed)
  | "RuleFailed" => some ("error", fun j => j.str?.map .failed)
  | _ => none

/-- The name of the kind and the other fields. In an array the name comes first. -/
def tagged? : Json → Option (String × Json)
  | .obj fs => do
    let tag ← Json.required? fs "type" Json.str?
    some (tag, .obj (fs.filter (·.1 != "type")))
  | .arr (.str tag :: rest) => some (tag, .arr rest)
  | _ => none

/-- Reads an event. All fields of its kind must be there. -/
def ofJson? (j : Json) : Option RuleEvent := do
  let (tag, rest) ← tagged? j
  let (field, read) ← kindReader? tag
  let fs ← Json.fields? ["rule_id", "rule_label", "node", field, "timestamp"] rest
  let rule ← Json.required? fs "rule_id" Json.str?
  let label ← Json.required? fs "rule_label" Json.str?
  let node ← Json.required? fs "node" Json.str?
  let kind ← Json.required? fs field read
  let timestamp ← Json.required? fs "timestamp" Json.int64?
  some { rule, label, node, kind, timestamp }

end RuleEvent

end ReactiveRules
