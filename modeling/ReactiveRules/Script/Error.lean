import ReactiveRules.Script.Fault

/-!
# `Script/Error.lean` — how a script fails

A condition or an action can fail to be read, fail while it is evaluated, yield something that is
no boolean where one is needed, or be cancelled. Which of them it was is decided from the fault and
the cancel flag alone: a set flag explains every fault, and a fault that asked for a boolean
anywhere in the script counts as the wrong kind of result.
-/

set_option autoImplicit false

namespace ReactiveRules

open Script

/-- The failure of a script with the given text. -/
inductive ScriptError where
  | compile (text : String) (fault : Fault)
  | runtime (text : String) (fault : Fault)
  | notBoolean (text : String)
  | cancelled
  deriving Inhabited

namespace ScriptError

def message : ScriptError → String
  | .compile text fault => "failed to compile \x60" ++ text ++ "\x60: " ++ fault.message
  | .runtime text fault => "failed to evaluate \x60" ++ text ++ "\x60: " ++ fault.message
  | .notBoolean text => "condition \x60" ++ text ++ "\x60 did not produce a boolean"
  | .cancelled => "evaluation cancelled"

/-- The failure that a fault of evaluation amounts to. -/
def ofFault (text : String) (cancelled : Bool) (fault : Fault) : ScriptError :=
  if cancelled then .cancelled
  else
    match fault with
    | .unwanted (.kind .bool) _ => .notBoolean text
    | fault => .runtime text fault

end ScriptError

end ReactiveRules
