import ReactiveRules.Rule.Error

/-!
# `Engine/Notice.lean` — what an engine tells about its own work

A notice is for whoever watches an engine at work. It has a level, a fixed message and fields.
-/

set_option autoImplicit false

namespace ReactiveRules

/-- How much a notice matters. -/
inductive Level where
  | debug
  | info
  | warn
  | error
  deriving DecidableEq, Repr, Inhabited

def Level.name : Level → String
  | .debug => "DEBUG"
  | .info => "INFO"
  | .warn => "WARN"
  | .error => "ERROR"

inductive Notice where
  | droppedPaused (rule : String)
  | droppedRefractory (rule : String)
  | droppedBusy (rule : String)
  | droppedUnknown (rule : String)
  | superseded (rule : String) (generation : Nat)
  | deferralCancelled (rule : String) (generation : Nat)
  | retiredWaiting (rule : String)
  | retiredDelayed (rule : String)
  | refractoryDelayed (rule : String)
  | vetoed (rule node : String)
  | conditionFailed (rule node : String) (e : ScriptError)
  | actionExecuted (rule node : String) (duration : Nat)
  | actionFailed (rule node : String) (e : RuleError)
  | runPanicked (rule node : String) (e : RuleError)
  | listenerPanicked (rule signal : String)
  | registered (rule label : String) (priority : Int)
  | replaced (rule label : String)
  | deregistered (rule : String) (detached : Nat)
  | observing (rule node : String)
  | paused (rule : String)
  | resumed (rule : String)
  | offerSuppressed (priority : Int)
  | dispatchSuppressed (rule node : String)
  | dispatchUnknown (worker : Nat) (rule : String)
  | workerStopped (worker : Nat)
  | housekeeping (forgotten swept : Nat)
  | started (workers housekeeping : Nat)
  | stopped
  deriving Inhabited

namespace Notice

def level : Notice → Level
  | .conditionFailed .. | .actionFailed .. => .warn
  | .runPanicked .. | .listenerPanicked .. => .error
  | .registered .. | .replaced .. | .deregistered .. | .observing .. | .paused _ | .resumed _
  | .started .. | .stopped => .info
  | _ => .debug

def message : Notice → String
  | .droppedPaused _ => "rule paused, notification dropped"
  | .droppedRefractory _ => "rule in refractory period, notification dropped"
  | .droppedBusy _ => "rule busy, notification dropped"
  | .droppedUnknown _ => "notification for unknown rule ignored"
  | .superseded .. => "deferred evaluation superseded"
  | .deferralCancelled .. => "deferred evaluation cancelled"
  | .retiredWaiting _ => "rule retired while waiting for its runner"
  | .retiredDelayed _ => "rule retired before execution"
  | .refractoryDelayed _ => "rule entered refractory period before execution"
  | .vetoed .. => "rule run vetoed"
  | .conditionFailed .. => "condition evaluation failed"
  | .actionExecuted .. => "rule action executed"
  | .actionFailed .. => "rule action failed"
  | .runPanicked .. => "rule run panicked"
  | .listenerPanicked .. => "listener panicked"
  | .registered .. => "rule registered"
  | .replaced .. => "rule replaced"
  | .deregistered .. => "rule deregistered"
  | .observing .. => "rule observing vertex"
  | .paused _ => "rule paused"
  | .resumed _ => "rule resumed"
  | .offerSuppressed _ => "dispatch request suppressed by hysteresis"
  | .dispatchSuppressed .. => "dispatch suppressed by hysteresis"
  | .dispatchUnknown .. => "dispatched rule no longer registered"
  | .workerStopped _ => "dispatch worker stopped"
  | .housekeeping .. => "housekeeping pass"
  | .started .. => "rule engine started"
  | .stopped => "rule engine stopped"

def fields : Notice → List (String × String)
  | .droppedPaused rule | .droppedRefractory rule | .droppedBusy rule | .droppedUnknown rule
  | .retiredWaiting rule | .retiredDelayed rule | .refractoryDelayed rule | .paused rule
  | .resumed rule => [("rule_id", rule)]
  | .superseded rule generation | .deferralCancelled rule generation =>
    [("rule_id", rule), ("generation", toString generation)]
  | .vetoed rule node | .dispatchSuppressed rule node => [("rule_id", rule), ("node", node)]
  | .conditionFailed rule node e => [("rule_id", rule), ("node", node), ("error", e.message)]
  | .actionFailed rule node e | .runPanicked rule node e =>
    [("rule_id", rule), ("node", node), ("error", e.message)]
  | .actionExecuted rule node duration =>
    [("rule_id", rule), ("node", node), ("duration_ms", toString duration)]
  | .listenerPanicked rule signal => [("rule_id", rule), ("callback", signal)]
  | .registered rule label priority =>
    [("rule_id", rule), ("label", label), ("priority", toString priority)]
  | .replaced rule label => [("rule_id", rule), ("label", label)]
  | .deregistered rule detached => [("rule_id", rule), ("detached", toString detached)]
  | .observing rule node => [("rule_id", rule), ("vertex", node)]
  | .offerSuppressed priority => [("priority", toString priority)]
  | .dispatchUnknown worker rule => [("worker", toString worker), ("rule_id", rule)]
  | .workerStopped worker => [("worker", toString worker)]
  | .housekeeping forgotten swept =>
    [("forgotten", toString forgotten), ("swept", toString swept)]
  | .started workers interval =>
    [("workers", toString workers), ("housekeeping_ms", toString interval)]
  | .stopped => []

end Notice

end ReactiveRules
