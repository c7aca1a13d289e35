import ReactiveRules.Json.Basic

/-!
# `Script/Process.lean` — computations that ask their surroundings

Evaluating a script is a computation that now and then asks for something: to write a line, or to
run a command and hear its answer. A `Process` is that computation as data. Whoever holds one sees
what it asks for next and decides when and how to answer, so an action can be left standing at a
command and taken up later. Scripts end, so a process is a finite tree on every path of answers.
-/

set_option autoImplicit false

namespace ReactiveRules.Script

/-- What a script hears of a command it called. -/
inductive Reply where
  | returned (value : Json)
  | failed (message : String)
  /-- The command was not run, because the run has been cancelled. -/
  | cancelled
  deriving Inhabited

/-- A computation of an `α` that may write lines and call commands. -/
inductive Process (α : Type) where
  | done (result : α)
  /-- The computation broke off; nothing follows. -/
  | panicked (message : String)
  | log (message : String) (next : Process α)
  | invoke (command : String) (arguments : List Json) (next : Reply → Process α)

namespace Process

variable {α β ε : Type}

instance [Inhabited α] : Inhabited (Process α) := ⟨.done default⟩

def bind : Process α → (α → Process β) → Process β
  | .done a, f => f a
  | .panicked m, _ => .panicked m
  | .log m next, f => .log m (next.bind f)
  | .invoke c args next, f => .invoke c args fun r => (next r).bind f

/-- Goes on with the result of a process unless it is an error. -/
def andThen (p : Process (Except ε α)) (f : α → Process (Except ε β)) : Process (Except ε β) :=
  p.bind fun
    | .error e => .done (.error e)
    | .ok a => f a

@[simp] theorem done_bind (a : α) (f : α → Process β) : (done a).bind f = f a := rfl

@[simp] theorem panicked_bind (m : String) (f : α → Process β) :
    (panicked m : Process α).bind f = panicked m := rfl

@[simp] theorem log_bind (m : String) (p : Process α) (f : α → Process β) :
    (log m p).bind f = log m (p.bind f) := rfl

@[simp] theorem invoke_bind (c : String) (args : List Json) (k : Reply → Process α)
    (f : α → Process β) : (invoke c args k).bind f = invoke c args fun r => (k r).bind f := rfl

end Process

end ReactiveRules.Script
