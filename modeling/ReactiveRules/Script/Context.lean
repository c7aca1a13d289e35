import ReactiveRules.Facts.Basic
import ReactiveRules.Script.Eval
import ReactiveRules.Text.Letter
import ReactiveRules.Trigger

/-!
# `Script/Context.lean` — what a script sees

A script sees its trigger as five variables, every fact whose name is an identifier as a variable of
that name unless the trigger has taken it, all facts through `fact`, and the bound commands. A
condition may not assign, an action may; what it assigns is gone when it ends, because every
evaluation starts from `Context.initialVariables`.
-/

set_option autoImplicit false

namespace ReactiveRules

open Script

/-- What a script is evaluated for. -/
inductive Purpose where
  | condition
  | action
  deriving DecidableEq, Repr, Inhabited

/-- May a variable have this name? A letter or `_` comes first, then letters, numbers, `_`
and dots. -/
def isIdentifier (name : String) : Bool :=
  match name.toList with
  | [] => false
  | c :: cs =>
    (Text.isLetter c || c == '_') &&
      cs.all fun c => Text.isLetterOrNumber c || c == '_' || c == '.'

/-- What a script can see: the trigger, the facts that count now, and the bound commands. -/
structure Context where
  trigger : Trigger
  facts : List Fact
  commands : List String
  deriving Inhabited

namespace Context

/-- The variables that stand for the trigger. -/
def triggerVariables (t : Trigger) : Variables :=
  [("value", Value.ofJson t.value), ("node", .text t.node), ("attribute", .text t.name),
   ("evaluation_type", .text t.aspect.name), ("rule_id", .text t.rule)]

/-- Adds a fact as a variable, if its name can be one and is still free. -/
def addFact (vars : Variables) (f : Fact) : Variables :=
  if isIdentifier f.name && (vars.get? f.name).isNone then vars.set f.name (Value.ofJson f.value)
  else vars

/-- The variables that a script starts with. -/
def initialVariables (c : Context) : Variables := c.facts.foldl addFact (triggerVariables c.trigger)

/-- What a script can reach besides its variables. -/
def scope (c : Context) (p : Purpose) : Scope :=
  { writable := p == .action
    facts := c.facts.map fun f => (f.name, f.value)
    commands := c.commands }

def process (c : Context) (p : Purpose) (t : Tree) : Process (Except Fault Value) :=
  (c.scope p).run t c.initialVariables

end Context

end ReactiveRules
