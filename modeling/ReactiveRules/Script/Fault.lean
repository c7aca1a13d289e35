import ReactiveRules.Script.Value

/-!
# `Script/Fault.lean` — what can be wrong with a script

One type for the faults of all stages: reading the text, building the tree, and evaluating it. A
fault keeps its cause; `Fault.message` is the one place that words it.
-/

set_option autoImplicit false

namespace ReactiveRules.Script

/-- What an operator or function wanted of a value. -/
inductive Wanted where
  | kind (k : Kind)
  | number
  | numberOrText
  | tupleOf (length : Nat)
  | tupleBetween (least most : Nat)
  | oneOf (kinds : List Kind)
  deriving DecidableEq, Repr

/-- The arithmetic operations on integers that can overflow or divide by zero. -/
inductive Arithmetic where
  | add
  | subtract
  | multiply
  | divide
  | modulo
  deriving DecidableEq, Repr

/-- A fault of a script. -/
inductive Fault where
  | illegalEscape (sequence : String)
  | unmatchedQuote
  | lonePart (part : String) (next : Option String)
  | unmatchedOpening
  | unmatchedClosing
  | missingOperator
  | operandOfLeaf
  | precedence
  | operandCount (expected actual : Nat)
  | unwanted (wanted : Wanted) (actual : Value)
  | mixedSum (left right : Kind)
  | arithmetic (operation : Arithmetic) (left right : Value)
  | negation (operand : Value)
  | unboundVariable (name : String)
  | unboundFunction (name : String)
  | readOnly
  | outOfBounds
  | custom (message : String)
  deriving Inhabited

namespace Fault

def kindList (kinds : List Kind) : String :=
  "[" ++ ", ".intercalate (kinds.map Kind.name) ++ "]"

def wantedText : Wanted → String
  | .kind k => "a Value::" ++ k.name
  | .number => "a Value::Float or Value::Int"
  | .numberOrText => "a Value::Number or a Value::String"
  | .tupleOf n => "a Value::Tuple of length " ++ toString n
  | .tupleBetween low high =>
    "a Value::Tuple of length " ++ toString low ++ " to " ++ toString high
  | .oneOf kinds => "one of " ++ kindList kinds

/-- What was being done to two integers, with the operator between them. -/
def arithmeticText : Arithmetic → String × String
  | .add => ("adding", "+")
  | .subtract => ("subtracting", "-")
  | .multiply => ("multiplying", "*")
  | .divide => ("dividing", "/")
  | .modulo => ("modulating", "%")

def message : Fault → String
  | .illegalEscape s => "Illegal escape sequence: " ++ s
  | .unmatchedQuote => "Found an unmatched double quote '\"'"
  | .lonePart part (some next) =>
    "Found a partial token '" ++ part ++ "' that should not be followed by '" ++ next ++ "'."
  | .lonePart part none =>
    "Found a partial token '" ++ part ++ "' that should be followed by another partial token."
  | .unmatchedOpening => "Found an unmatched opening parenthesis '('."
  | .unmatchedClosing => "Found an unmatched closing parenthesis ')'."
  | .missingOperator =>
    "Found an opening parenthesis that is preceded by something that does not take any " ++
    "arguments on the right, or found a closing parenthesis that is succeeded by something that " ++
    "does not take any arguments on the left."
  | .operandOfLeaf => "Tried to append a node to a leaf node."
  | .precedence => "Tried to append a node to another node with higher precedence."
  | .operandCount expected actual =>
    "An operator expected " ++ toString expected ++ " arguments, but got " ++ toString actual ++ "."
  | .unwanted wanted actual =>
    "Expected " ++ wantedText wanted ++ ", but got " ++ actual.describe ++ "."
  | .mixedSum left right =>
    "The operator Add was called with a wrong combination of types: " ++ kindList [left, right]
  | .arithmetic operation left right =>
    let (doing, sign) := arithmeticText operation
    "Error " ++ doing ++ " " ++ left.display ++ " " ++ sign ++ " " ++ right.display
  | .negation operand => "Error negating -" ++ operand.display
  | .unboundVariable name =>
    "Variable identifier is not bound to anything by context: " ++ Text.quoted name ++ "."
  | .unboundFunction name =>
    "Function identifier is not bound to anything by context: " ++ Text.quoted name ++ "."
  | .readOnly => "Cannot manipulate context"
  | .outOfBounds => "Tried to access a tuple or string at an invalid index"
  | .custom message => "Error: " ++ message

end Fault

end ReactiveRules.Script
