import ReactiveRules.Json.Basic

/-!
# `Trigger.lean` — notifications of change

A trigger tells one rule that an attribute or a property of a node has a new value. Two triggers
are the same request if they agree on everything but that value, so a queue can drop a repeated
change whatever the new value is.
-/

set_option autoImplicit false

namespace ReactiveRules

/-- Which side of a node changed. -/
inductive Aspect where
  | attribute
  | property
  deriving DecidableEq, Repr, Inhabited

namespace Aspect

def name : Aspect → String
  | .attribute => "attribute"
  | .property => "property"

def ofName? : String → Option Aspect
  | "attribute" => some .attribute
  | "property" => some .property
  | _ => none

def toJson (a : Aspect) : Json := .str a.name

/-- Reads an aspect: its word, or an object with the word as its only name and nothing to it. -/
def ofJson? : Json → Option Aspect
  | .str s => ofName? s
  | .obj [(s, .null)] => ofName? s
  | _ => none

end Aspect

/-- A notification of change for one rule. -/
structure Trigger where
  rule : String
  node : String
  /-- The attribute or property that changed. -/
  name : String
  value : Json
  aspect : Aspect
  deriving Inhabited

namespace Trigger

/-- Are the two triggers the same request? -/
def sameRequest (a b : Trigger) : Bool :=
  a.rule == b.rule && a.node == b.node && a.name == b.name && a.aspect == b.aspect

instance : BEq Trigger := ⟨sameRequest⟩

/-- Triggers in the order of rule, node and attribute. -/
def compareRequests (a b : Trigger) : Ordering :=
  (compare a.rule b.rule).then ((compare a.node b.node).then (compare a.name b.name))

end Trigger

end ReactiveRules
