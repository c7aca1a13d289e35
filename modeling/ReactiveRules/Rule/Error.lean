import ReactiveRules.Script.Error
import ReactiveRules.Settings.Basic

/-!
# `Rule/Error.lean` — why an operation on rules or a run fails

Every error is a cause. `RuleError.message` is the one place that words it; the errors of scripts
and of settings keep their own wording behind a word for where they come from.
-/

set_option autoImplicit false

namespace ReactiveRules

/-- The cause of a failed operation or run. -/
inductive RuleError where
  | script (e : ScriptError)
  /-- The action did not end before its deadline, given in milliseconds. -/
  | timeout (rule : String) (deadline : Nat)
  | unknownRule (rule : String)
  | retired (rule : String)
  | panicked (message : String)
  | emptyId
  | emptyCondition (rule : String)
  | zeroTimeout (rule : String)
  | noHost (node rule : String)
  | alreadyRunning
  | notRunning
  | settings (e : SettingsError)
  deriving Inhabited

namespace RuleError

def message : RuleError → String
  | .script e => "Expression error: " ++ e.message
  | .timeout rule deadline =>
    "Rule " ++ rule ++ " action exceeded its " ++ toString deadline ++ "ms deadline"
  | .unknownRule rule => "Rule not found: " ++ rule
  | .retired rule => "Rule " ++ rule ++ " was retired before its action ran"
  | .panicked m => "Rule run panicked: " ++ m
  | .emptyId => "Validation error: rule id must not be empty"
  | .emptyCondition rule => "Validation error: rule " ++ rule ++ " has an empty condition"
  | .zeroTimeout rule =>
    "Validation error: rule " ++ rule ++ " has a zero execution timeout; use None to disable it"
  | .noHost node rule =>
    "Validation error: cannot observe " ++ node ++ " for rule " ++ rule ++
      ": no observer host configured"
  | .alreadyRunning => "Scheduler error: engine is already running"
  | .notRunning => "Scheduler error: engine is not running"
  | .settings e => "Configuration error: " ++ e.message

def isTimeout : RuleError → Bool
  | .timeout _ _ => true
  | _ => false

def isNotFound : RuleError → Bool
  | .unknownRule _ => true
  | _ => false

end RuleError

end ReactiveRules
