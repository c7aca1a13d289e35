import ReactiveRules.Broadcast.Channel
import ReactiveRules.Command
import ReactiveRules.Dispatch.Queue
import ReactiveRules.Engine.Notice
import ReactiveRules.History
import ReactiveRules.Rule.Registry
import ReactiveRules.Run.Basic

/-!
# `Engine/Basic.lean` — the state of an engine

An engine is a value: its rules, its queue, its runs and everything that is still going on, the
time, and a journal of what happened. Nothing goes on by itself. `ready` lists the jobs that can
take a turn; a turn takes a job as far as it gets without waiting. A job that goes on after
another one was done on its behalf comes to the front, one that is woken goes to the back.
-/

set_option autoImplicit false

namespace ReactiveRules

inductive Device where
  | plain (c : Command)
  /-- Holds the action up until a gate is opened. -/
  | gate
  /-- Sets off a run of a rule and answers with its outcome. -/
  | fire
  /-- Gives the engine an order. -/
  | order
  deriving Inhabited

/-- Where an evaluation stands. -/
inductive EvaluationState where
  | running (p : Script.Process (Except Script.Fault Script.Value))
  /-- It is held up at a gate by a command. -/
  | atGate (gate command : String)
      (next : Script.Reply → Script.Process (Except Script.Fault Script.Value))
  /-- It waits for the outcome of a run that it set off. -/
  | awaiting (next : Script.Reply → Script.Process (Except Script.Fault Script.Value))
  | ended
  deriving Inhabited

/-- The evaluation of a condition or an action. An action whose run has given it up goes on all the
same, but nobody asks for its result. -/
structure Evaluation where
  run : Nat
  text : String
  /-- The commands that were bound when it began. -/
  commands : List (String × Nat)
  cancelled : Bool := false
  state : EvaluationState
  deriving Inhabited

/-- A write to the graph: the rules to notify, one after another. -/
structure GraphWrite where
  node : String
  name : String
  value : Json
  aspect : Aspect
  remaining : List String
  task : Nat
  deriving Inhabited

/-- What a worker is doing. -/
inductive WorkerState where
  /-- It is about to look into the queue. -/
  | looking
  /-- It waits at the queue. -/
  | idle
  | busy (run : Nat)
  | stopped
  deriving DecidableEq, Repr, Inhabited

/-- The workers of one start of the engine. -/
structure Crew where
  workers : List WorkerState
  /-- Has the crew been told to stop? -/
  shutdown : Bool := false
  /-- When it keeps house next; never after it has stopped. -/
  tick : Option Nat
  deriving DecidableEq, Repr, Inhabited

/-- One who waits for a crew to stop. -/
structure StopRequest where
  crew : Nat
  task : Nat
  answered : Bool := false
  deriving DecidableEq, Repr, Inhabited

/-- What can take a turn. -/
inductive Job where
  | run (n : Nat)
  | script (evaluation : Nat)
  | write (n : Nat)
  | worker (crew n : Nat)
  | stop (n : Nat)
  deriving DecidableEq, Repr, Inhabited

/-- What happened. -/
inductive Entry where
  /-- A listener was told of a run. -/
  | heard (listener : String) (full : Bool) (signal : RunSignal) (run : Nat)
  | called (command rule node : String) (arguments : List Json)
  /-- A gate let an action pass. -/
  | passed (command rule : String) (cancelled : Bool)
  | wrote (rule line : String)
  /-- A fact that a script was given. -/
  | fact (rule text : String)
  | notice (n : Notice)
  deriving Inhabited

/-- What a task ended with. -/
inductive TaskResult where
  | outcome (o : Outcome)
  | written
  | stopped
  | refused (e : RuleError)
  deriving Inhabited

structure Engine where
  settings : Settings := {}
  now : Nat := 0
  registry : Registry := {}
  queue : DispatchQueue Trigger (Nat × Nat)
  history : History
  evaluator : Evaluator := {}
  commands : CommandTable Device := {}
  /-- The gates that are open, each for one action. -/
  permits : List String := []
  listeners : List Listener := []
  /-- The runs that are told of carry their numbers. -/
  bus : Channel Nat := .ofCapacity 1
  runs : List Run := []
  evaluations : List Evaluation := []
  writes : List GraphWrite := []
  crews : List Crew := []
  /-- The crew at work. -/
  running : Option Nat := none
  stops : List StopRequest := []
  /-- Slots that are held from outside, by name: of which instance. -/
  guards : List (String × Nat) := []
  ready : List Job := []
  /-- The number of tasks so far. -/
  tasks : Nat := 0
  finished : List (Nat × TaskResult) := []
  journal : List (Nat × Entry) := []
  deriving Inhabited

namespace Engine

/-- An engine with the given settings, if they can be worked with. -/
def ofSettings (s : Settings) : Except RuleError Engine :=
  match s.check with
  | .error e => .error (.settings e)
  | .ok () => .ok
    { settings := s
      queue := { window := s.hysteresis.toNat }
      history := { capacity := s.historySize.toNat } }

/-! ## Looking -/

def runAt (E : Engine) (r : Nat) : Run := E.runs.getD r default

def ruleOf (E : Engine) (r : Nat) : Instance := E.registry.instances.getD (E.runAt r).rule default

def evaluationAt (E : Engine) (e : Nat) : Evaluation := E.evaluations.getD e default

/-! ## Changing one thing -/

def say (E : Engine) (e : Entry) : Engine := { E with journal := E.journal ++ [(E.now, e)] }

def notice (E : Engine) (n : Notice) : Engine := E.say (.notice n)

def modifyRun (E : Engine) (r : Nat) (f : Run → Run) : Engine :=
  { E with runs := E.runs.modify r f }

def mark (E : Engine) (r : Nat) (m : Milestone) : Engine :=
  E.modifyRun r fun x => { x with log := x.log ++ [m] }

def setStage (E : Engine) (r : Nat) (s : Stage) : Engine :=
  E.modifyRun r fun x => { x with stage := s }

def modifyInstance (E : Engine) (n : Nat) (f : Instance → Instance) : Engine :=
  { E with registry := E.registry.modify n f }

def modifyRuleOf (E : Engine) (r : Nat) (f : Rule → Rule) : Engine :=
  E.modifyInstance (E.runAt r).rule (.mapRule f)

def modifyEvaluation (E : Engine) (e : Nat) (f : Evaluation → Evaluation) : Engine :=
  { E with evaluations := E.evaluations.modify e f }

def setEvaluation (E : Engine) (e : Nat) (s : EvaluationState) : Engine :=
  E.modifyEvaluation e fun x => { x with state := s }

def setWorker (E : Engine) (c w : Nat) (s : WorkerState) : Engine :=
  { E with crews := E.crews.modify c fun x => { x with workers := x.workers.set w s } }

def finishTask (E : Engine) (n : Nat) (r : TaskResult) : Engine :=
  { E with finished := E.finished ++ [(n, r)] }

def startTask (E : Engine) : Engine × Nat := ({ E with tasks := E.tasks + 1 }, E.tasks + 1)

/-! ## Whose turn it is -/

/-- A job can take a turn, after all others that can. -/
def wake (E : Engine) (j : Job) : Engine :=
  if E.ready.contains j then E else { E with ready := E.ready ++ [j] }

/-- A job takes the next turn. -/
def goOn (E : Engine) (j : Job) : Engine := { E with ready := j :: E.ready.erase j }

/-- All the workers that the queue has woken can take a turn. -/
def wakeWorkers (E : Engine) : Engine :=
  E.queue.woken.foldl (fun E w => E.wake (.worker w.1 w.2)) E

/-- Begins a run; gives its number. -/
def spawn (E : Engine) (rule : Nat) (t : Trigger) (a : Admission) (c : Client) : Engine × Nat :=
  ({ E with runs := E.runs ++ [{ rule, trigger := t, admission := a, client := c }] },
   E.runs.length)

end Engine

end ReactiveRules
