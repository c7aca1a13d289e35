import ReactiveRules.Engine.Basic
import ReactiveRules.Engine.Rules

/-!
# `Engine/Course.lean` — the course of a run

A run is admitted unless its rule is paused or rests; its value is recorded as a fact. It may then
be put off, has to claim the slot, and starts. The listeners of that moment are told first and may
forbid it. Then the condition is judged, and if it holds and the rule does not rest by now, the
action is performed, perhaps after a delay. However the run ends, the slot is given back first, and
then its client hears the outcome.

Each definition here takes a run from one point where it can be overtaken to the next. Turns are taken one
at a time, so between two such points nothing of another run takes place, and what a run has found there
still holds when it acts on it.
-/

set_option autoImplicit false

namespace ReactiveRules.Engine

/-! ## The end -/

/-- Gives back the slot if the run holds it, and wakes those who wait for it. -/
def free (E : Engine) (r : Nat) : Engine :=
  if (E.runAt r).claimed then
    let (slot, woken) := (E.ruleOf r).slot.release
    let E := E.modifyInstance (E.runAt r).rule fun i => { i with slot }
    let E := E.modifyRun r fun x => { x with claimed := false }
    woken.foldl (fun E w => E.wake (.run w)) E
  else E

/-- A script that waited for a reply goes on with it. -/
def reply (E : Engine) (e : Nat) (answer : Script.Reply) : Engine :=
  match (E.evaluationAt e).state with
  | .awaiting next => (E.setEvaluation e (.running (next answer))).goOn (.script e)
  | _ => E

/-- The client hears the outcome, once. -/
def answer (E : Engine) (r : Nat) (o : Outcome) : Engine :=
  if (E.runAt r).answered then E
  else
    let E := E.modifyRun r fun x => { x with answered := true }
    match (E.runAt r).client with
    | .task n => E.finishTask n (.outcome o)
    | .write n => E.goOn (.write n)
    | .worker c w => (E.setWorker c w .looking).goOn (.worker c w)
    | .script e => E.reply e (.returned (.str o.toJson.write))

def finish (E : Engine) (r : Nat) (o : Outcome) : Engine :=
  ((E.setStage r (.ended (.outcome o))).free r).answer r o

/-! ## Telling -/

def age (E : Engine) (r : Nat) : Nat := E.now - (E.runAt r).started

/-- What a publisher broadcasts of a signal. -/
def eventKind? (duration : Nat) : RunSignal → Option EventKind
  | .afterEvaluate condition => some (.evaluated condition)
  | .afterExecute _ => some (.executed (UInt64.ofNat duration))
  | .failure e => some (.failed e.message)
  | _ => none

/-- Broadcasts a signal, if it is of the kinds that are broadcast. -/
def publish (E : Engine) (r : Nat) (s : RunSignal) : Engine :=
  match eventKind? (E.age r) s with
  | none => E
  | some kind =>
    let i := E.ruleOf r
    let event : RuleEvent :=
      { rule := i.id, label := i.definition.label, node := (E.runAt r).trigger.node, kind
        timestamp := 0 }
    { E with bus := (E.bus.send ⟨event, "twin-rules", some r⟩).1 }

/-- One listener hears a signal. If it breaks off, nobody else notices. -/
def hear (E : Engine) (r : Nat) (s : RunSignal) (l : Listener) : Engine :=
  let E := E.mark r (.heard l s)
  match l.role with
  | .reporter full =>
    let E := E.say (.heard l.name full s r)
    if l.breaksOn s then E.notice (.listenerPanicked (E.ruleOf r).id s.name) else E
  | .publisher => E.publish r s

def tell (E : Engine) (r : Nat) (s : RunSignal) : Engine :=
  (E.runAt r).audience.foldl (fun E l => E.hear r s l) E

/-- The listeners are asked, in order, whether the run may take place, up to the first that forbids
it or breaks off. -/
def ask (E : Engine) (r : Nat) : List Listener → Engine × Except String Bool
  | [] => (E, .ok true)
  | l :: rest =>
    let E := E.mark r (.heard l .beforeEvaluate)
    match l.role with
    | .reporter full =>
      let E := E.say (.heard l.name full .beforeEvaluate r)
      if l.breaksOn .beforeEvaluate then
        (E, .error (Listener.panicMessage .beforeEvaluate))
      else if l.forbids (E.runAt r).trigger then (E, .ok false)
      else E.ask r rest
    | .publisher => E.ask r rest

def record (E : Engine) (r : Nat) (condition executed : Bool) (error : Option RuleError) :
    Engine :=
  let entry := (E.runAt r).recordAt (E.ruleOf r).definition E.now condition executed error
  { E.mark r (.recorded entry) with history := E.history.push entry }

/-! ## Evaluations -/

def context (E : Engine) (r : Nat) : Context :=
  { trigger := { (E.runAt r).trigger with rule := (E.ruleOf r).id }
    facts := (E.ruleOf r).facts.validFacts E.now
    commands := E.commands.names.map (·.1) }

/-- Shows the facts that a script is given. -/
def showFacts (E : Engine) (r : Nat) : Engine :=
  (E.context r).facts.foldl
    (fun E f => E.say (.fact (E.ruleOf r).id (f.display E.settings.factWidth.toNat))) E

/-- Begins an evaluation; gives its number, or the failure to read the text. -/
def evaluate (E : Engine) (r : Nat) (p : Purpose) (text : String) :
    Engine × Except ScriptError Nat :=
  let (evaluator, process) := E.evaluator.start p text (E.context r) false
  let E := { E with evaluator }
  match process with
  | .error e => (E, .error e)
  | .ok process =>
    let started : Evaluation :=
      { run := r, text, commands := E.commands.names, state := .running process }
    ({ E with evaluations := E.evaluations ++ [started] }, .ok E.evaluations.length)

/-! ## From the start to the end -/

def breakOff (E : Engine) (r : Nat) (message : String) : Engine :=
  let e : RuleError := .panicked message
  let E := E.notice (.runPanicked (E.ruleOf r).id (E.runAt r).trigger.node e)
  let E := E.modifyRuleOf r Rule.markFailed
  let E := E.tell r (.failure e)
  let E := E.record r false false (some e)
  E.finish r (.failed e)

/-- The attempt at the action has ended. -/
def conclude (E : Engine) (r : Nat) (result : Except RuleError Json) : Engine :=
  let i := E.ruleOf r
  let node := (E.runAt r).trigger.node
  let E := E.mark r .concluded
  let E := if i.definition.clearFacts then E.modifyRuleOf r Rule.clearFacts else E
  match result with
  | .ok v =>
    let E := E.modifyRuleOf r (·.markCompleted E.now true)
    let E := E.notice (.actionExecuted i.id node (E.age r))
    let E := E.tell r (.afterExecute v)
    let E := E.tell r (.success true)
    let E := E.record r true true none
    E.finish r (.completed true true)
  | .error e =>
    let E := E.modifyRuleOf r (·.markCompleted E.now false)
    let E := E.notice (.actionFailed i.id node e)
    let E := E.tell r (.failure e)
    let E := E.record r true true (some e)
    E.finish r (.failed e)

/-- The run attempts its action. The run takes a turn after the action has got as far as it gets
without waiting, because its deadline may have come by then. -/
def act (E : Engine) (r : Nat) : Engine :=
  let d := (E.ruleOf r).definition
  let E := E.mark r .attempted
  let E := E.showFacts r
  match E.evaluate r .action d.action with
  | (E, .error e) => E.conclude r (.error (.script e))
  | (E, .ok e) =>
    let E := E.setStage r (.acting e (d.timeout.map (E.now + ·)))
    (E.wake (.run r)).goOn (.script e)

/-- The action did not end before its deadline; it is told to stop. -/
def expire (E : Engine) (r e : Nat) : Engine :=
  let d := (E.ruleOf r).definition
  let E := E.modifyEvaluation e fun x => { x with cancelled := true }
  E.conclude r (.error (.timeout d.id (d.timeout.getD 0)))

/-- The instance was retired while the action was put off. -/
def forgo (E : Engine) (r : Nat) : Engine :=
  let e : RuleError := .retired (E.ruleOf r).id
  let E := E.notice (.retiredDelayed (E.ruleOf r).id)
  let E := E.tell r (.failure e)
  let E := E.record r true false (some e)
  E.finish r (.suppressed .retired)

/-- The condition holds: the action follows, unless the rule rests by now. Without a delay nothing of
another run falls between this look at the rest and the attempt, because a turn ends only where a run
waits for something. -/
def proceed (E : Engine) (r : Nat) : Engine :=
  let i := E.ruleOf r
  if i.inRefractory E.now then
    let E := E.notice (.refractoryDelayed i.id)
    let E := E.tell r (.success true)
    let E := E.record r true false none
    E.finish r (.suppressed .refractory)
  else
    let E := E.tell r .beforeExecute
    let delay := i.definition.executionDelay
    if delay == 0 then E.act r
    else (E.setStage r (.delayed (E.now + delay))).goOn (.run r)

/-- The condition has been judged. One that failed counts as false. -/
def decideOn (E : Engine) (r : Nat) (result : Except ScriptError Bool) : Engine :=
  match result with
  | .error e =>
    let E := E.notice (.conditionFailed (E.ruleOf r).id (E.runAt r).trigger.node e)
    let E := E.tell r (.evaluationError e)
    let E := E.tell r (.success false)
    let E := E.record r false false (some (.script e))
    E.finish r (.completed false false)
  | .ok false =>
    let E := E.tell r (.afterEvaluate false)
    let E := E.tell r (.success false)
    let E := E.record r false false none
    E.finish r (.completed false false)
  | .ok true => (E.tell r (.afterEvaluate true)).proceed r

def judge (E : Engine) (r : Nat) : Engine :=
  let E := E.mark r .judged
  let E := E.showFacts r
  let E := E.modifyRuleOf r Rule.markEvaluated
  match E.evaluate r .condition (E.ruleOf r).definition.condition with
  | (E, .error e) => E.decideOn r (.error e)
  | (E, .ok e) => (E.setStage r (.judging e)).goOn (.script e)

/-- The run holds the slot and starts, unless the rule rests by now. -/
def start (E : Engine) (r : Nat) : Engine :=
  let i := E.ruleOf r
  if i.inRefractory E.now then
    (E.notice (.droppedRefractory i.id)).finish r (.suppressed .refractory)
  else
    let E := E.modifyRun r fun x => { x with started := E.now, audience := E.listeners }
    let E := E.mark r .began
    match E.ask r E.listeners with
    | (E, .error m) => E.breakOff r m
    | (E, .ok false) => (E.notice (.vetoed i.id (E.runAt r).trigger.node)).finish r .vetoed
    | (E, .ok true) => E.judge r

def hold (E : Engine) (r : Nat) (slot : Slot Nat) : Engine :=
  let E := E.modifyInstance (E.runAt r).rule fun i => { i with slot }
  E.modifyRun r fun x => { x with claimed := true }

def claim (E : Engine) (r : Nat) : Engine :=
  let i := E.ruleOf r
  if i.retired then E.finish r (.suppressed .retired)
  else
    match i.slot.claim? with
    | some slot => (E.hold r slot).start r
    | none =>
      match (E.runAt r).admission with
      | .dropIfBusy => (E.notice (.droppedBusy i.id)).finish r (.suppressed .busy)
      | .wait =>
        let E := E.modifyInstance (E.runAt r).rule fun i => { i with slot := i.slot.enlist r }
        E.setStage r .waiting

/-- The evaluation of the run is put off, in place of the one put off before. Its time runs from the first
turn of the task that is to wait for it. That this is the time of the admission is because time passes only
when nobody can take a turn, and this task can. -/
def defer (E : Engine) (r : Nat) : Engine :=
  let i := E.ruleOf r
  let generation := i.generation + 1
  let E := E.modifyRuleOf r (·.supersede r)
  let E := match i.pending with
    | some (old, previous) => (E.notice (.superseded i.id old)).cancelDeferral previous
    | none => E
  let E := E.setStage r (.deferred generation (E.now + i.definition.evaluationDelay) false)
  E.answer r .deferred

def arrive (E : Engine) (r : Nat) : Engine :=
  let i := E.ruleOf r
  let t := (E.runAt r).trigger
  if i.paused then (E.notice (.droppedPaused i.id)).finish r (.suppressed .paused)
  else if i.inRefractory E.now then
    (E.notice (.droppedRefractory i.id)).finish r (.suppressed .refractory)
  else
    let E := E.modifyRuleOf r (·.recordFact E.now t.node t.name t.value)
    let E := E.modifyRun r fun x => { x with admitted := true }
    if i.definition.evaluationDelay == 0 then E.claim r else E.defer r

/-! ## Turns

Where two things have come to pass at once, `second` decides which of them the run attends to. -/

def wakeDeferred (E : Engine) (r g due : Nat) (cancelled second : Bool) : Engine :=
  if due ≤ E.now && !(cancelled && second) then (E.modifyRuleOf r (·.finishPending g)).claim r
  else if cancelled then
    (E.notice (.deferralCancelled (E.ruleOf r).id g)).setStage r (.ended .cancelled)
  else E

/-- The turn of a run that waits for the slot. Woken by a release it claims the slot or enlists
again; it leaves when the instance is retired. -/
def wakeWaiting (E : Engine) (r : Nat) (second : Bool) : Engine :=
  let i := E.ruleOf r
  let released := !i.slot.waiting.contains r
  match (if released && !(i.retired && second) then i.slot.claim? else none) with
  | some slot => (E.hold r slot).start r
  | none =>
    if i.retired then
      let E := E.modifyInstance (E.runAt r).rule fun i => { i with slot := i.slot.forget r }
      (E.notice (.retiredWaiting i.id)).finish r (.suppressed .retired)
    else if released then
      E.modifyInstance (E.runAt r).rule fun i => { i with slot := i.slot.enlist r }
    else E

def wakeDelayed (E : Engine) (r due : Nat) (second : Bool) : Engine :=
  let retired := (E.ruleOf r).retired
  if due ≤ E.now && !(retired && second) then E.act r
  else if retired then E.forgo r
  else E

def performRun (E : Engine) (r : Nat) (second : Bool) : Engine :=
  match E.runs[r]? with
  | none => E
  | some x =>
    match x.stage with
    | .arriving => E.arrive r
    | .deferred g due cancelled => E.wakeDeferred r g due cancelled second
    | .waiting => E.wakeWaiting r second
    | .delayed due => E.wakeDelayed r due second
    | .acting e (some deadline) => if deadline ≤ E.now then E.expire r e else E
    | _ => E

end ReactiveRules.Engine
