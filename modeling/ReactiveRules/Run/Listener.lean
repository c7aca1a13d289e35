import ReactiveRules.Run.Outcome
import ReactiveRules.Trigger

/-!
# `Run/Listener.lean` — those who follow a run

A listener is told of every stage of a run. The first signal alone can be answered: a listener that
forbids the run ends it. A listener may break off on any signal; after the first one that ends the
run as a failure, after any other nobody else notices.
-/

set_option autoImplicit false

namespace ReactiveRules

/-- What a listener is told. -/
inductive RunSignal where
  | beforeEvaluate
  | afterEvaluate (condition : Bool)
  | evaluationError (e : ScriptError)
  | beforeExecute
  | afterExecute (result : Json)
  | failure (e : RuleError)
  | success (condition : Bool)
  deriving Inhabited

def RunSignal.name : RunSignal → String
  | .beforeEvaluate => "before_evaluate"
  | .afterEvaluate _ => "after_evaluate"
  | .evaluationError _ => "on_evaluation_error"
  | .beforeExecute => "before_execute"
  | .afterExecute _ => "after_execute"
  | .failure _ => "on_failure"
  | .success _ => "on_success"

/-- What a listener does with what it is told. -/
inductive ListenerRole where
  /-- It writes every signal down, in full detail if told so. -/
  | reporter (full : Bool)
  /-- It broadcasts what was evaluated, executed or failed. -/
  | publisher
  deriving DecidableEq, Repr, Inhabited

structure Listener where
  /-- Its number; two listeners with one number are the same. -/
  number : Nat
  name : String
  role : ListenerRole
  /-- Does it forbid every run? -/
  veto : Bool := false
  /-- Does it forbid the runs for this attribute? -/
  vetoedName : Option String := none
  /-- The signals it breaks off on, by their names. -/
  panics : List String := []
  deriving DecidableEq, Repr, Inhabited

namespace Listener

def forbids (l : Listener) (t : Trigger) : Bool := l.veto || l.vetoedName == some t.name

def breaksOn (l : Listener) (s : RunSignal) : Bool := l.panics.contains s.name

def panicMessage (s : RunSignal) : String := s.name ++ " bug"

end Listener

end ReactiveRules
