import ReactiveRules.Engine.Course

/-!
# `Engine/Scripts.lean` — scripts at work

A turn of an evaluation is one step of its script. A command may hold it up at a gate, may set off
a run of another rule whose outcome the script waits for, and may give the engine an order. When the
script ends, its run goes on from there, unless it has given the evaluation up.
-/

set_option autoImplicit false

namespace ReactiveRules

/-! ## Arguments -/

/-- An argument that should be a text; the empty text if it is none. -/
def textArgument (args : List Json) (i : Nat) : String := ((args[i]?).bind Json.str?).getD ""

/-- Any argument; `null` if it is missing. -/
def argument (args : List Json) (i : Nat) : Json := args.getD i .null

/-- The trigger that the arguments of a firing command describe. -/
def firedTrigger (args : List Json) : Trigger :=
  { rule := textArgument args 0
    node := textArgument args 1
    name := textArgument args 2
    value := argument args 3
    aspect := if textArgument args 4 == "property" then .property else .attribute }

/-- An order that a script gives the engine. -/
inductive Order where
  | deregister (rule : String)
  | pause (rule : String)
  | resume (rule : String)
  | register (rule condition action : String)
  | dispatch (rule name : String) (value : Json)
  /-- Sets the cancel flag of the script itself. -/
  | cancel
  | unknown (word : String)
  deriving Inhabited

/-- The order that arguments describe. -/
def Order.ofArguments (args : List Json) : Order :=
  let rule := textArgument args 1
  match textArgument args 0 with
  | "deregister" => .deregister rule
  | "pause" => .pause rule
  | "resume" => .resume rule
  | "register" => .register rule (textArgument args 2) (textArgument args 3)
  | "dispatch" => .dispatch rule (textArgument args 2) (argument args 3)
  | "cancel" => .cancel
  | word => .unknown word

namespace Engine

/-! ## Steps -/

/-- A script goes on, taking the next turn. -/
def resumeScript (E : Engine) (e : Nat)
    (p : Script.Process (Except Script.Fault Script.Value)) : Engine :=
  (E.setEvaluation e (.running p)).goOn (.script e)

/-- The answer of an operation on rules, as a script hears it. -/
def orderReply {α : Type} (f : α → Json) (r : Except RuleError α) : Except String Json :=
  (r.map f).mapError RuleError.message

/-- Carries out an order given by a run for a node; the answer says whether to set the cancel
flag, and what the script hears. -/
def obey (E : Engine) (node : String) : Order → Engine × Bool × Except String Json
  | .deregister rule =>
    let (E, r) := E.deregister rule
    (E, false, orderReply (fun _ => .str "ok") r)
  | .pause rule =>
    let (E, r) := E.setPaused rule true
    (E, false, orderReply (fun _ => .str "ok") r)
  | .resume rule =>
    let (E, r) := E.setPaused rule false
    (E, false, orderReply (fun _ => .str "ok") r)
  | .register rule condition action =>
    let (E, r) := E.register rule "inner" condition action 1
    (E, false, orderReply (fun _ => .str "ok") r)
  | .dispatch rule name value =>
    let (E, r) := E.dispatch { rule, node, name, value, aspect := .attribute }
    (E, false, orderReply .bool r)
  | .cancel => (E, true, .ok .null)
  | .unknown word => (E, false, .error ("unknown command " ++ word))

/-- A gate lets a script pass: it hears whether it has been cancelled in the meantime. -/
def pass (E : Engine) (e : Nat) (command : String)
    (next : Script.Reply → Script.Process (Except Script.Fault Script.Value)) : Engine :=
  let x := E.evaluationAt e
  let E := E.say (.passed command (E.ruleOf x.run).id x.cancelled)
  E.resumeScript e (next (.returned (.bool x.cancelled)))

def reachGate (E : Engine) (e : Nat) (command gate : String)
    (next : Script.Reply → Script.Process (Except Script.Fault Script.Value)) : Engine :=
  if E.permits.contains gate then
    { E with permits := E.permits.erase gate }.pass e command next
  else E.setEvaluation e (.atGate gate command next)

/-- A script sets off a run and waits for its outcome. -/
def fire (E : Engine) (e : Nat) (t : Trigger)
    (next : Script.Reply → Script.Process (Except Script.Fault Script.Value)) : Engine :=
  match E.registry.number? t.rule with
  | none => E.resumeScript e (next (.returned (.str "NoRule")))
  | some n =>
    let (E, r) := (E.setEvaluation e (.awaiting next)).spawn n t .dropIfBusy (.script e)
    E.goOn (.run r)

/-- The evaluation has ended, with a result or by breaking off; its run goes on if it still asks for
it. -/
def concludeScript (E : Engine) (e : Nat)
    (result : Except String (Except Script.Fault Script.Value)) : Engine :=
  let x := E.evaluationAt e
  let E := E.setEvaluation e .ended
  match (E.runAt x.run).stage with
  | .judging e' =>
    if e' == e then
      match result with
      | .error m => E.breakOff x.run m
      | .ok v => E.decideOn x.run (conditionTruth x.text x.cancelled v)
    else E
  | .acting e' _ =>
    if e' == e then
      match result with
      | .error m => E.conclude x.run (.error (.panicked m))
      | .ok v => E.conclude x.run ((actionResult x.text x.cancelled v).mapError .script)
    else E
  | _ => E

/-- A script hears the answer of a command, which may have set the cancel flag. -/
def answerScript (E : Engine) (e : Nat) (cancels : Bool) (a : Except String Json)
    (next : Script.Reply → Script.Process (Except Script.Fault Script.Value)) : Engine :=
  let E := E.modifyEvaluation e fun x => { x with cancelled := x.cancelled || cancels }
  E.resumeScript e (next (.ofAnswer a))

def invoke (E : Engine) (e : Nat) (command : String) (args : List Json)
    (next : Script.Reply → Script.Process (Except Script.Fault Script.Value)) : Engine :=
  let x := E.evaluationAt e
  match (CommandTable.numberIn x.commands command).bind E.commands.call? with
  | none => E.resumeScript e (next (.failed ("no command " ++ command)))
  | some (commands, device, calls) =>
    let node := (E.runAt x.run).trigger.node
    let E := { E with commands }.say (.called command (E.ruleOf x.run).id node args)
    match device with
    | .plain c =>
      match c.respond calls args with
      | .answer cancels a => E.answerScript e cancels a next
      | .panic m => E.concludeScript e (.error m)
    | .gate => E.reachGate e command (textArgument args 0) next
    | .fire => E.fire e (firedTrigger args) next
    | .order =>
      let (E, cancels, a) := E.obey node (Order.ofArguments args)
      E.answerScript e cancels a next

/-- The turn of an evaluation: one step of its script. A cancelled script calls no command. -/
def performScript (E : Engine) (e : Nat) : Engine :=
  let x := E.evaluationAt e
  match x.state with
  | .running (.done v) => E.concludeScript e (.ok v)
  | .running (.panicked m) => E.concludeScript e (.error m)
  | .running (.log line next) =>
    (E.say (.wrote (E.ruleOf x.run).id line)).resumeScript e next
  | .running (.invoke command args next) =>
    if x.cancelled then E.resumeScript e (next .cancelled) else E.invoke e command args next
  | _ => E

/-! ## Gates -/

/-- Is the evaluation held up at a gate? -/
def Evaluation.isAt (gate : String) (x : Evaluation) : Bool :=
  match x.state with
  | .atGate g _ _ => g == gate
  | _ => false

/-- Opens a gate for one action: the one that is held up there, or the next to come. -/
def openGate (E : Engine) (gate : String) : Engine :=
  match E.evaluations.findIdx? (Evaluation.isAt gate) with
  | none => { E with permits := E.permits ++ [gate] }
  | some e =>
    match (E.evaluationAt e).state with
    | .atGate _ command next => E.pass e command next
    | _ => E

end Engine

end ReactiveRules
