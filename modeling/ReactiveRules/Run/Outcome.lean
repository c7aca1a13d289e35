import ReactiveRules.Json.Writer
import ReactiveRules.Rule.Error

/-!
# `Run/Outcome.lean` — how a run ends

A caller that notifies a rule hears one outcome. `Outcome.toJson` is the form in which a script
hears it that has set off a run of its own.
-/

set_option autoImplicit false

namespace ReactiveRules

/-- Why a notification was dropped. -/
inductive Suppression where
  | paused
  | refractory
  /-- The rule has a runner and admits no other. -/
  | busy
  /-- The instance was replaced or deregistered. -/
  | retired
  deriving DecidableEq, Repr, Inhabited

/-- What became of a notification. -/
inductive Outcome where
  /-- A listener forbade the run. -/
  | vetoed
  | suppressed (why : Suppression)
  /-- The evaluation was put off. -/
  | deferred
  | completed (condition executed : Bool)
  | failed (e : RuleError)
  deriving Inhabited

def Suppression.name : Suppression → String
  | .paused => "Paused"
  | .refractory => "Refractory"
  | .busy => "Busy"
  | .retired => "Retired"

def ScriptError.kindName : ScriptError → String
  | .compile _ _ => "Compile"
  | .runtime _ _ => "Runtime"
  | .notBoolean _ => "NotBoolean"
  | .cancelled => "Cancelled"

namespace RuleError

def kindName : RuleError → String
  | .script e => e.kindName
  | .timeout _ _ => "Timeout"
  | .unknownRule _ => "NotFound"
  | .retired _ => "Retired"
  | .panicked _ => "Panicked"
  | .emptyId | .emptyCondition _ | .zeroTimeout _ | .noHost _ _ => "Validation"
  | .alreadyRunning | .notRunning => "Scheduler"
  | .settings _ => "Config"

def toJson (e : RuleError) : Json :=
  Json.object
    [("error", .str e.kindName), ("message", .str e.message), ("timeout", .bool e.isTimeout),
     ("not_found", .bool e.isNotFound)]

end RuleError

namespace Outcome

def executed : Outcome → Bool
  | .completed _ executed => executed
  | _ => false

def isSuppressed : Outcome → Bool
  | .suppressed _ => true
  | _ => false

def toJson : Outcome → Json
  | .vetoed => .str "Vetoed"
  | .suppressed why => Json.object [("suppressed", .str why.name)]
  | .deferred => .str "Deferred"
  | .completed condition executed =>
    Json.object [("completed", .arr [.bool condition, .bool executed])]
  | .failed e => e.toJson

end Outcome

end ReactiveRules
