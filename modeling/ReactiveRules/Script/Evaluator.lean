import ReactiveRules.Script.Context
import ReactiveRules.Script.Error

/-!
# `Script/Evaluator.lean` — from a text to a result

An evaluator keeps the trees of the texts it has read, so that a text is read once; texts that
cannot be read are not kept. `start` turns a text into the process that evaluates it. What the
process ends with is then taken as the truth of a condition or the result of an action.
-/

set_option autoImplicit false

namespace ReactiveRules

open Script

/-- The trees of the texts read so far. -/
structure Evaluator where
  trees : List (String × Tree) := []
  deriving Inhabited

namespace Evaluator

/-- The tree of a text, and the evaluator that keeps it. -/
def compile (e : Evaluator) (text : String) : Evaluator × Except ScriptError Tree :=
  match e.trees.find? (·.1 == text) with
  | some (_, tree) => (e, .ok tree)
  | none =>
    match Tree.ofText text with
    | .ok tree => (⟨(text, tree) :: e.trees⟩, .ok tree)
    | .error fault => (e, .error (.compile text fault))

def size (e : Evaluator) : Nat := e.trees.length

def clear (_ : Evaluator) : Evaluator := {}

/-- Begins to evaluate a text. An action that is cancelled beforehand is not even read. -/
def start (e : Evaluator) (p : Purpose) (text : String) (c : Context) (cancelled : Bool) :
    Evaluator × Except ScriptError (Process (Except Fault Value)) :=
  if p == .action && cancelled then (e, .error .cancelled)
  else
    let (e, tree) := e.compile text
    (e, tree.map (c.process p))

end Evaluator

/-- The truth of a condition that ended with a value or a fault. -/
def conditionTruth (text : String) (cancelled : Bool) (r : Except Fault Value) :
    Except ScriptError Bool :=
  (r.bind Value.truth).mapError (.ofFault text cancelled)

/-- The result of an action that ended with a value or a fault. -/
def actionResult (text : String) (cancelled : Bool) (r : Except Fault Value) :
    Except ScriptError Json :=
  (r.map Value.toJson).mapError (.ofFault text cancelled)

end ReactiveRules
