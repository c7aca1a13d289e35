import ReactiveRules.History
import ReactiveRules.Rule.Definition
import ReactiveRules.Run.Listener

/-!
# `Run/Basic.lean` — a notification on its way

Every notification of a rule is one run, from its arrival to its end. A run is for one instance of a
rule, on behalf of a client that hears the outcome. `Stage` says where it stands; at the stages
`deferred`, `waiting`, `delayed` and `acting` it can be overtaken by others. The log of a run says
what has happened in it since it started.
-/

set_option autoImplicit false

namespace ReactiveRules

/-- What a run does when it finds the slot of its rule held. -/
inductive Admission where
  | dropIfBusy
  | wait
  deriving DecidableEq, Repr, Inhabited

/-- On whose behalf a run goes on. -/
inductive Client where
  | task (n : Nat)
  /-- A write to the graph, which goes on to its next observer afterwards. -/
  | write (n : Nat)
  /-- A worker of a crew. -/
  | worker (crew n : Nat)
  /-- A script that waits for the outcome. -/
  | script (evaluation : Nat)
  deriving DecidableEq, Repr, Inhabited

/-- How a run came to its end. -/
inductive Ending where
  | outcome (o : Outcome)
  /-- Its deferred evaluation was superseded, or cancelled by retirement. -/
  | cancelled
  /-- Its client went away. -/
  | abandoned
  deriving Inhabited

/-- Where a run stands. -/
inductive Stage where
  /-- It has not been looked at. -/
  | arriving
  /-- Its evaluation is put off until a time, unless it is cancelled before. -/
  | deferred (generation due : Nat) (cancelled : Bool)
  /-- It waits for the slot. -/
  | waiting
  /-- Its condition is judged in an evaluation. -/
  | judging (evaluation : Nat)
  /-- Its action is put off until a time. -/
  | delayed (due : Nat)
  /-- Its action is performed in an evaluation, with a deadline or none. -/
  | acting (evaluation : Nat) (deadline : Option Nat)
  | ended (ending : Ending)
  deriving Inhabited

/-- Something that happened in a run. -/
inductive Milestone where
  /-- The run held the slot and turned to its listeners. -/
  | began
  /-- A listener was told of the run. -/
  | heard (l : Listener) (s : RunSignal)
  /-- The condition was put to judgement. -/
  | judged
  /-- The action was attempted. -/
  | attempted
  /-- The attempt ended, by itself or at its deadline. -/
  | concluded
  /-- The run left a record in the history. -/
  | recorded (r : RunRecord)
  deriving Inhabited

structure Run where
  /-- The number of the rule's instance. -/
  rule : Nat
  trigger : Trigger
  admission : Admission
  client : Client
  stage : Stage := .arriving
  /-- Has the client heard the outcome? -/
  answered : Bool := false
  /-- Was the notification neither paused nor refractory when it arrived? -/
  admitted : Bool := false
  /-- Does it hold the slot? -/
  claimed : Bool := false
  /-- When it started, after it had claimed the slot. -/
  started : Nat := 0
  /-- The listeners at its start. -/
  audience : List Listener := []
  /-- What has happened in it, in order. -/
  log : List Milestone := []
  deriving Inhabited

namespace Run

/-- Is the run over? -/
def isOver (r : Run) : Bool :=
  match r.stage with
  | .ended _ => true
  | _ => false

/-- The record that the run leaves at a time, with what became of its condition and its action. -/
def recordAt (r : Run) (d : Definition) (now : Nat) (condition executed : Bool)
    (error : Option RuleError) : RunRecord :=
  { rule := d.id, label := d.label, aspect := r.trigger.aspect
    condition, executed, success := error.isNone, error := error.map RuleError.message
    duration := UInt64.ofNat (now - r.started) }

/-- When the run goes on by itself, if it does. -/
def due? (r : Run) : Option Nat :=
  match r.stage with
  | .deferred _ due _ => some due
  | .delayed due => some due
  | .acting _ deadline => deadline
  | _ => none

end Run

end ReactiveRules
