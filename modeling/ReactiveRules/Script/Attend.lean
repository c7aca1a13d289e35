import ReactiveRules.Script.Evaluator

/-!
# `Script/Attend.lean` — evaluation in given surroundings

The surroundings of a script answer its calls one after another from a state of their own.
`Process.attend` runs a process among them and keeps what it did: the lines it wrote and the
commands it called, in order. A call may set the cancel flag; from then on no command is called any
more, and each further call only hears that the run is cancelled.
-/

set_option autoImplicit false

namespace ReactiveRules

open Script

/-- What a command does when it is called. -/
inductive Response where
  /-- It answers, and sets the cancel flag if told so. -/
  | answer (cancels : Bool) (reply : Except String Json)
  /-- It breaks off the whole evaluation. -/
  | panic (message : String)
  deriving Inhabited

/-- What a script did. -/
inductive Effect where
  | called (command : String) (arguments : List Json)
  | wrote (line : String)
  deriving Inhabited

/-- How an evaluation went. -/
structure Course (σ α : Type) where
  /-- The result, or the message it broke off with. -/
  result : Except String α
  cancelled : Bool
  state : σ
  effects : List Effect

namespace Course

variable {σ α β : Type}

/-- The course with one more effect in front. -/
def after (e : Effect) (c : Course σ α) : Course σ α := { c with effects := e :: c.effects }

/-- The course of an evaluation whose result is put into other words. -/
def map (f : Bool → α → β) (c : Course σ α) : Course σ β :=
  { c with result := c.result.map (f c.cancelled) }

end Course

namespace Script

/-- The reply to a command's answer. -/
def Reply.ofAnswer : Except String Json → Reply
  | .ok v => .returned v
  | .error m => .failed m

/-- Runs a process among surroundings that answer by `respond`. -/
def Process.attend {σ α : Type} (respond : σ → String → List Json → σ × Response) :
    Process α → Bool → σ → Course σ α
  | .done a, cancelled, s => ⟨.ok a, cancelled, s, []⟩
  | .panicked m, cancelled, s => ⟨.error m, cancelled, s, []⟩
  | .log line next, cancelled, s => (next.attend respond cancelled s).after (.wrote line)
  | .invoke f args next, cancelled, s =>
    if cancelled then (next .cancelled).attend respond cancelled s
    else
      let (s', r) := respond s f args
      match r with
      | .answer cancels reply =>
        ((next (.ofAnswer reply)).attend respond cancels s').after (.called f args)
      | .panic m => ⟨.error m, cancelled, s', [.called f args]⟩

end Script

namespace Evaluator

variable {σ : Type}

/-- The course of a text among surroundings, with its result yet to be judged. -/
def attend (e : Evaluator) (respond : σ → String → List Json → σ × Response) (p : Purpose)
    (text : String) (c : Context) (cancelled : Bool) (s : σ) :
    Evaluator × Course σ (Except ScriptError (Except Fault Value)) :=
  let (e, p) := e.start p text c cancelled
  match p with
  | .error err => (e, ⟨.ok (.error err), cancelled, s, []⟩)
  | .ok p => (e, (p.attend respond cancelled s).map fun _ => .ok)

def judge (e : Evaluator) (respond : σ → String → List Json → σ × Response) (text : String)
    (c : Context) (cancelled : Bool) (s : σ) :
    Evaluator × Course σ (Except ScriptError Bool) :=
  let (e, course) := e.attend respond .condition text c cancelled s
  (e, course.map fun flag r => r.bind (conditionTruth text flag))

def act (e : Evaluator) (respond : σ → String → List Json → σ × Response) (text : String)
    (c : Context) (cancelled : Bool) (s : σ) :
    Evaluator × Course σ (Except ScriptError Json) :=
  let (e, course) := e.attend respond .action text c cancelled s
  (e, course.map fun flag r => r.bind (actionResult text flag))

end Evaluator

end ReactiveRules
