import ReactiveRules.Script.Token

/-!
# `Script/Tree.lean` — operator trees

A script is a tree of operators. The tree grows token by token on a stack of unfinished trees, one
for every open parenthesis and every sequence (`,` and `;`) that may still grow: `insert` hangs a
new operator below the right edge of a tree, above every operator that binds weaker than it. A
missing operand is no fault here; evaluation finds it.
-/

set_option autoImplicit false

namespace ReactiveRules.Script

/-! ## Operators -/

/-- The operators of a tree. -/
inductive Operator where
  /-- Parentheses, and the whole script. -/
  | group
  | binary (b : Binary)
  | negate
  | not
  | assign
  | update (b : Binary)
  | tuple
  | chain
  | constant (v : Value)
  | read (x : String)
  | write (x : String)
  | call (f : String)
  deriving Inhabited

/-- How strongly an operator between operands binds. -/
def Binary.precedence : Binary → Nat
  | .power => 120
  | .multiply | .divide | .modulo => 100
  | .add | .subtract => 95
  | .equal | .unequal | .greater | .less | .atLeast | .atMost => 80
  | .and => 75
  | .or => 70

namespace Operator

/-- How strongly an operator binds. -/
def precedence : Operator → Nat
  | .group => 200
  | .binary b => b.precedence
  | .negate | .not => 110
  | .assign | .update _ => 50
  | .tuple => 40
  | .chain => 0
  | .constant _ | .read _ | .write _ => 200
  | .call _ => 190

/-- The number of operands at which an operator is full; a sequence never is. -/
def arity? : Operator → Option Nat
  | .group => some 1
  | .binary _ | .assign | .update _ => some 2
  | .negate | .not | .call _ => some 1
  | .constant _ | .read _ | .write _ => some 0
  | .tuple | .chain => none

/-- Operators that stand in front of their operand. -/
def isUnary : Operator → Bool
  | .negate | .not | .call _ => true
  | _ => false

/-- Operators of which the later one binds first. -/
def isRightToLeft : Operator → Bool
  | .assign | .call _ => true
  | _ => false

/-- Operators that collect any number of operands. -/
def isSequence : Operator → Bool
  | .tuple | .chain => true
  | _ => false

def isLeaf (o : Operator) : Bool := o.arity? == some 0

/-- Parentheses, and the whole script. -/
def isGroup : Operator → Bool
  | .group => true
  | _ => false

/-- Are the two the same sequence operator? -/
def sameSequence : Operator → Operator → Bool
  | .tuple, .tuple => true
  | .chain, .chain => true
  | _, _ => false

/-- Does `below` belong below `above` when it comes later in the text? -/
def goesBelow (above below : Operator) : Bool :=
  above.precedence < below.precedence || below.isUnary ||
    (above.precedence == below.precedence && above.isRightToLeft && below.isRightToLeft)

end Operator

/-! ## Trees -/

/-- An operator with its operands in the order of the text. -/
inductive Tree where
  | node (operator : Operator) (operands : List Tree)
  deriving Inhabited

namespace Tree

def operator : Tree → Operator
  | .node o _ => o

def operands : Tree → List Tree
  | .node _ ts => ts

@[simp] theorem operator_node (o : Operator) (ts : List Tree) : (node o ts).operator = o := rfl

@[simp] theorem operands_node (o : Operator) (ts : List Tree) : (node o ts).operands = ts := rfl

def leaf (o : Operator) : Tree := .node o []

def push (t : Tree) (operand : Tree) : Tree := .node t.operator (t.operands ++ [operand])

/-- Has the operator at the top more operands than it takes? -/
def isOverfull (t : Tree) : Bool :=
  match t.operator.arity? with
  | some n => n < t.operands.length
  | none => false

theorem sizeOf_operand_lt {o : Operator} {ts : List Tree} {t : Tree} (h : ts.getLast? = some t) :
    sizeOf t < sizeOf (Tree.node o ts) := by
  have hm : t ∈ ts := List.mem_of_getLast? h
  have := List.sizeOf_lt_of_mem hm
  simp only [node.sizeOf_spec]
  omega

/-- Hangs `new` below the right edge of a tree. A full operator gives its last operand to `new`,
unless the two belong the other way round. `atTop` says that nothing stands above the tree. -/
def insert (t : Tree) (new : Tree) (atTop : Bool) : Except Fault Tree :=
  match t with
  | .node o ts =>
    if !(atTop || o.goesBelow new.operator) then .error .precedence
    else if o.isLeaf then .error .operandOfLeaf
    else if o.arity? == some ts.length then
      match _hlast : ts.getLast? with
      | none => .error .operandOfLeaf
      | some last =>
        if last.operator.goesBelow new.operator then do
          let last ← insert last new false
          .ok (.node o (ts.dropLast ++ [last]))
        else if new.operator.isLeaf then .error .operandOfLeaf
        else if o.isGroup && !ts.dropLast.isEmpty then .error .missingOperator
        else if o.isGroup && new.operator.isGroup then .error .missingOperator
        else if new.operator.isGroup && (!new.operands.isEmpty || last.operator.isGroup) then
          .error .missingOperator
        else .ok (.node o (ts.dropLast ++ [new.push last]))
    else .ok (.node o (ts ++ [new]))
termination_by sizeOf t
decreasing_by exact sizeOf_operand_lt ‹_›

end Tree

/-! ## Growing trees -/

/-- The unfinished trees, innermost first. -/
abbrev Stack := List Tree

/-- An empty group: the whole script, or a parenthesis that has just been opened. -/
def emptyGroup : Tree := .leaf .group

/-- Folds the innermost tree into those around it as long as they bind stronger than `goal`. -/
def foldTo (goal : Operator) (t : Tree) : Stack → Except Fault (Tree × Stack)
  | [] => .error .unmatchedClosing
  | outer :: rest =>
    if goal.precedence < outer.operator.precedence then foldTo goal (outer.push t) rest
    else .ok (t, outer :: rest)

/-- Folds everything up to the innermost open parenthesis or the whole script into one tree. -/
def foldAll (t : Tree) : Stack → Except Fault Stack
  | [] =>
    if t.operator.isGroup then
      if t.operands.length > 1 then .error .missingOperator else .ok [t]
    else .error .unmatchedClosing
  | outer :: rest =>
    if t.operator.isGroup then
      if t.operands.length > 1 then .error .missingOperator else .ok (t :: outer :: rest)
    else if t.operator.isSequence then foldAll (outer.push t) rest
    else if t.isOverfull then .error .missingOperator
    else .ok (t :: outer :: rest)

/-- Puts a sequence operator behind everything that stands before it. -/
def growSequence (node : Tree) : Stack → Except Fault Stack
  | [] => .error .unmatchedClosing
  | top :: rest =>
    if top.operator.sameSequence node.operator then .ok (top.push emptyGroup :: rest)
    else if top.operator.isGroup then
      .ok (.node node.operator [top, emptyGroup] :: emptyGroup :: rest)
    else if top.operator.precedence < node.operator.precedence then
      match top.operands.getLast? with
      | none => .error .unmatchedClosing
      | some last =>
        .ok (.node node.operator [last, emptyGroup] ::
          .node top.operator top.operands.dropLast :: rest)
    else do
      let (folded, rest) ← foldTo node.operator top rest
      .ok (node.push folded :: rest)

/-- Puts an operator, an operand or a parenthesis behind everything that stands before it. -/
def grow (node : Tree) : Stack → Except Fault Stack
  | [] => .error .unmatchedClosing
  | top :: rest =>
    if node.operator.isSequence then growSequence node (top :: rest)
    else if top.operator.isSequence then
      match top.operands.getLast? with
      | none => .error .unmatchedClosing
      | some last => do
        let last ← last.insert node true
        .ok (.node top.operator (top.operands.dropLast ++ [last]) :: rest)
    else do
      let top ← top.insert node true
      .ok (top :: rest)

/-- The operator of a token that is neither parenthesis, from its neighbours. -/
def Token.operator (previous : Option Token) (next : Option Token) : Token → Operator
  | .constant v => .constant v
  | .name x =>
    if (next.map Token.isAssignment).getD false then .write x
    else if (next.map Token.beginsOperand).getD false then .call x
    else .read x
  | .binary .subtract =>
    if (previous.map Token.endsOperand).getD false then .binary .subtract else .negate
  | .binary b => .binary b
  | .not => .not
  | .assign => .assign
  | .update b => .update b
  | .comma => .tuple
  | .semicolon => .chain
  | .opening | .closing => .group

/-- Grows the stack by the tokens behind `previous`. -/
def growAll : Option Token → List Token → Stack → Except Fault Stack
  | _, [], stack => .ok stack
  | previous, t :: rest, stack =>
    match t with
    | .opening => growAll (some t) rest (emptyGroup :: stack)
    | .closing =>
      if stack.length ≤ 1 then .error .unmatchedClosing
      else
        match stack with
        | [] => .error .unmatchedClosing
        | top :: outer => do
          match ← foldAll top outer with
          | [] => .error .unmatchedClosing
          | closed :: outer => growAll (some t) rest (← grow closed outer)
    | t => do
      growAll (some t) rest (← grow (.leaf (t.operator previous rest.head?)) stack)

def Tree.ofTokens (ts : List Token) : Except Fault Tree := do
  match ← growAll none ts [emptyGroup] with
  | [] => .error .unmatchedClosing
  | top :: rest =>
    match ← foldAll top rest with
    | [t] => .ok t
    | [] => .error .unmatchedClosing
    | _ => .error .unmatchedOpening

def Tree.ofText (text : String) : Except Fault Tree := do Tree.ofTokens (← tokens text)

end ReactiveRules.Script
