import ReactiveRules.Facts.Validity
import ReactiveRules.Rule.Error
import ReactiveRules.Text.Blank

/-!
# `Rule/Definition.lean` — what a rule is told to do

A rule judges its condition whenever it is notified, and performs its action when the condition
holds. Times are milliseconds; a rule of lower priority value is served first.
-/

set_option autoImplicit false

namespace ReactiveRules

structure Definition where
  id : String
  label : String
  condition : String
  action : String
  priority : Int32
  /-- How long an evaluation is put off after its notification. -/
  evaluationDelay : Nat
  /-- How long an action is put off after its condition. -/
  executionDelay : Nat
  /-- How long after an action the rule is not notified again. -/
  refractoryPeriod : Nat
  /-- May several runs of the rule go on at once? -/
  parallel : Bool
  /-- Are all facts forgotten after an action? -/
  clearFacts : Bool
  /-- The deadline of an action; `none` for none. -/
  timeout : Option Nat
  /-- How long the facts count that the rule records. -/
  validity : Validity
  deriving DecidableEq, Repr, Inhabited

namespace Definition

/-- The definition of a rule for which the rest is as in the defaults. -/
def ofDefaults (id label condition action : String) (d : RuleDefaults) : Definition :=
  { id, label, condition, action
    priority := d.priority
    evaluationDelay := d.evaluationDelay.toNat
    executionDelay := d.executionDelay.toNat
    refractoryPeriod := d.refractoryPeriod.toNat
    parallel := d.parallel
    clearFacts := d.clearFacts
    timeout := if d.executionTimeout == 0 then none else some d.executionTimeout.toNat
    validity := Validity.ofSettings d.factDelay.toInt d.factUntil.toInt }

/-- The first thing that is wrong with a definition, if anything is. -/
def check (d : Definition) : Except RuleError Unit :=
  if Text.isBlankText d.id then .error .emptyId
  else if Text.isBlankText d.condition then .error (.emptyCondition d.id)
  else if d.timeout == some 0 then .error (.zeroTimeout d.id)
  else .ok ()

def isDeferred (d : Definition) : Bool := d.evaluationDelay != 0 || d.executionDelay != 0

end Definition

end ReactiveRules
