import ReactiveRules.Script.Builtin
import ReactiveRules.Script.Tree

/-!
# `Script/Eval.lean` — evaluation

All operands are evaluated from left to right, then the operator is applied; `&&` and `||` are no
exception. A name in front of a value is looked up among the commands first, then `fact` and `log`,
then the functions every script has. In a read-only scope the assignment operators are faults.
-/

set_option autoImplicit false

namespace ReactiveRules.Script

/-! ## Variables -/

/-- The variables of a script, each name at most once. -/
abbrev Variables := List (String × Value)

namespace Variables

def get? (vars : Variables) (x : String) : Option Value :=
  (vars.find? (·.1 == x)).map (·.2)

def set (x : String) (v : Value) : Variables → Variables
  | [] => [(x, v)]
  | (y, w) :: rest => if y == x then (y, v) :: rest else (y, w) :: set x v rest

/-- Assigns to a variable, which keeps the kind of its first value. -/
def assign (vars : Variables) (x : String) (v : Value) : Except Fault Variables :=
  match vars.get? x with
  | none => .ok (vars.set x v)
  | some old =>
    if old.kind == v.kind then .ok (vars.set x v)
    else .error (.unwanted (.kind old.kind) v)

end Variables

/-! ## Scopes -/

/-- What a script can reach besides its variables. -/
structure Scope where
  /-- May the script assign to variables? -/
  writable : Bool
  /-- The facts that `fact` looks up; of two with one name the later one counts. -/
  facts : List (String × Json)
  /-- The names that are bound to commands. -/
  commands : List String

/-- The arguments a command is called with: the items of a tuple, none for the empty value, else
the value itself. -/
def commandArguments : Value → List Json
  | .empty => []
  | .tuple vs => Value.toJsonItems vs
  | v => [v.toJson]

/-- What a command's answer means to the script. -/
def Reply.value : Reply → Except Fault Value
  | .returned v => .ok (Value.ofJson v)
  | .failed m => .error (.custom m)
  | .cancelled => .error (.custom "cancelled")

/-- The value of a fact by its name; the empty value if there is no such fact. -/
def Scope.fact (s : Scope) (v : Value) : Except Fault Value := do
  let name ← v.string
  match s.facts.reverse.find? (·.1 == name) with
  | some (_, value) => .ok (Value.ofJson value)
  | none => .ok .empty

/-- The line that a value writes. -/
def logLine : Value → String
  | .text s => s
  | v => v.display

/-- Calls a function or command. -/
def Scope.call (s : Scope) (f : String) (v : Value) : Process (Except Fault Value) :=
  if s.commands.contains f then .invoke f (commandArguments v) fun r => .done r.value
  else if f == "fact" then .done (s.fact v)
  else if f == "log" then .log (logLine v) (.done (.ok .empty))
  else
    match builtin? f with
    | some g => g v
    | none => .done (.error (.unboundFunction f))

/-! ## Operators -/

def exactly (n : Nat) (vs : List Value) : Except Fault Unit :=
  if vs.length == n then .ok () else .error (.operandCount n vs.length)

def oneOperand : List Value → Except Fault Value
  | [v] => .ok v
  | vs => .error (.operandCount 1 vs.length)

def twoOperands : List Value → Except Fault (Value × Value)
  | [a, b] => .ok (a, b)
  | vs => .error (.operandCount 2 vs.length)

def Variables.read (vars : Variables) (x : String) : Except Fault Value :=
  match vars.get? x with
  | some v => .ok v
  | none => .error (.unboundVariable x)

/-- Applies an operator other than a call to its operands. -/
def Operator.apply (writable : Bool) (vars : Variables) (vs : List Value) :
    Operator → Except Fault (Value × Variables)
  | .group => .ok (vs.headD .empty, vars)
  | .binary b => do
    let (x, y) ← twoOperands vs
    .ok (← b.apply x y, vars)
  | .negate => do
    let v ← oneOperand vs
    .ok (← Script.negate v, vars)
  | .not => do
    let v ← oneOperand vs
    .ok (.bool (!(← v.truth)), vars)
  | .assign =>
    if writable then do
      let (target, v) ← twoOperands vs
      .ok (.empty, ← vars.assign (← target.string) v)
    else .error .readOnly
  | .update b =>
    if writable then do
      let (target, v) ← twoOperands vs
      let x ← target.string
      let old ← vars.read x
      .ok (.empty, ← vars.assign x (← b.apply old v))
    else .error .readOnly
  | .tuple => .ok (.tuple vs, vars)
  | .chain =>
    match vs.getLast? with
    | some v => .ok (v, vars)
    | none => .error (.operandCount 1 0)
  | .constant v => do
    exactly 0 vs
    .ok (v, vars)
  | .read x => do
    exactly 0 vs
    .ok (← vars.read x, vars)
  | .write x => do
    exactly 0 vs
    .ok (.text x, vars)
  | .call f => .error (.unboundFunction f)

/-- Applies any operator; a call may ask the surroundings. -/
def Scope.apply (s : Scope) (o : Operator) (vs : List Value) (vars : Variables) :
    Process (Except Fault (Value × Variables)) :=
  match o with
  | .call f =>
    match oneOperand vs with
    | .error e => .done (.error e)
    | .ok v => (s.call f v).andThen fun r => .done (.ok (r, vars))
  | o => .done (o.apply s.writable vars vs)

/-! ## Trees -/

mutual

/-- Evaluates a tree: the operands from left to right, then the operator. -/
def Scope.eval (s : Scope) : Tree → Variables → Process (Except Fault (Value × Variables))
  | .node o ts, vars => (s.evalAll ts vars).andThen fun (vs, vars) => s.apply o vs vars

def Scope.evalAll (s : Scope) :
    List Tree → Variables → Process (Except Fault (List Value × Variables))
  | [], vars => .done (.ok ([], vars))
  | t :: ts, vars =>
    (s.eval t vars).andThen fun (v, vars) =>
      (s.evalAll ts vars).andThen fun (vs, vars) => .done (.ok (v :: vs, vars))

end

def Scope.run (s : Scope) (t : Tree) (vars : Variables) : Process (Except Fault Value) :=
  (s.eval t vars).andThen fun (v, _) => .done (.ok v)

end ReactiveRules.Script
