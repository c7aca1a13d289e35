import ReactiveRules.Facts.Memory
import ReactiveRules.Rule.Definition
import ReactiveRules.Text.Quoted

/-!
# `Rule/Basic.lean` — a rule at work

An instance of a rule has a definition and the state that its notifications and runs leave behind:
facts, counters, when its last action ended, and the one evaluation that may be put off. Replacing a
rule makes a new instance and retires the old one, so all of this starts over.

The dates of the latest trigger and of the latest execution, which statistics give besides the counters,
are of the calendar and left out. Each is set with the counter it belongs to and never taken back, so there
is one just if that counter is not zero.
-/

set_option autoImplicit false

namespace ReactiveRules

structure Rule where
  definition : Definition
  facts : FactMemory := {}
  /-- Has a fact been recorded since the condition was last judged? -/
  dirty : Bool := false
  paused : Bool := false
  /-- Has the instance been replaced or deregistered? -/
  retired : Bool := false
  /-- When the last action ended, well or badly. -/
  lastCompleted : Option Nat := none
  /-- The evaluation that is put off: its generation, and the number of its run. -/
  pending : Option (Nat × Nat) := none
  /-- The number of evaluations put off so far. -/
  generation : Nat := 0
  /-- The number of values recorded as facts; the date of the latest is left out. -/
  triggers : Nat := 0
  /-- The number of actions that ended well; the date of the latest is left out. -/
  executions : Nat := 0
  failures : Nat := 0
  deriving Inhabited

namespace Rule

def ofDefinition (d : Definition) : Rule := { definition := d }

def id (r : Rule) : String := r.definition.id

/-- Does the rule still rest from its last action? -/
def inRefractory (r : Rule) (now : Nat) : Bool :=
  match r.lastCompleted with
  | some done => now - done < r.definition.refractoryPeriod
  | none => false

/-- Records the new value of an attribute as a fact of its name. -/
def recordFact (r : Rule) (now : Nat) (node name : String) (value : Json) : Rule :=
  { r with
    facts := r.facts.record now node ⟨name, value⟩ r.definition.validity
    dirty := true
    triggers := r.triggers + 1 }

/-- The condition is being judged. -/
def markEvaluated (r : Rule) : Rule := { r with dirty := false }

/-- An attempt at the action has ended. -/
def markCompleted (r : Rule) (now : Nat) (success : Bool) : Rule :=
  if success then { r with lastCompleted := some now, executions := r.executions + 1 }
  else { r with lastCompleted := some now, failures := r.failures + 1 }

/-- A run broke off. -/
def markFailed (r : Rule) : Rule := { r with failures := r.failures + 1 }

def clearFacts (r : Rule) : Rule := { r with facts := .empty }

/-- Puts off the evaluation of a run, in place of the one put off before. -/
def supersede (r : Rule) (run : Nat) : Rule :=
  { r with generation := r.generation + 1, pending := some (r.generation + 1, run) }

/-- The evaluation of this generation is put off no longer. -/
def finishPending (r : Rule) (generation : Nat) : Rule :=
  match r.pending with
  | some (g, _) => if g == generation then { r with pending := none } else r
  | none => r

/-- The instance is replaced or deregistered; what it put off will not take place. -/
def retire (r : Rule) : Rule := { r with retired := true, pending := none }

def sweep (r : Rule) (now : Nat) : Rule := { r with facts := r.facts.sweep now }

/-- A one-line summary of an instance on which `runners` runs go on. -/
def summary (r : Rule) (runners : Nat) : String :=
  "Rule \x7b id: RuleId(" ++ Text.quoted r.id ++ "), label: " ++ Text.quoted r.definition.label ++
    ", priority: " ++ toString r.definition.priority.toInt ++ ", runners: " ++ toString runners ++
    ", facts: " ++ toString r.facts.size ++ " \x7d"

end Rule

end ReactiveRules
