import ReactiveRules.Engine.Basic

/-!
# `Engine/Rules.lean` — managing rules

Registering, removing, pausing and dispatching by id. An operation that is refused changes nothing.
A retired instance is a signal to its runs: those that wait or are delayed wake up, and the one
whose evaluation is put off is cancelled.
-/

set_option autoImplicit false

namespace ReactiveRules.Engine

/-- The deferred evaluation of a run will not take place. -/
def cancelDeferral (E : Engine) (r : Nat) : Engine :=
  match (E.runAt r).stage with
  | .deferred g due _ => (E.setStage r (.deferred g due true)).wake (.run r)
  | _ => E

/-- Does the run listen for the retirement of an instance? -/
def heedsRetirement (x : Run) (n : Nat) : Bool :=
  x.rule == n &&
    match x.stage with
    | .waiting | .delayed _ => true
    | _ => false

/-- The runs that listen for the retirement of an instance. -/
def listening (E : Engine) (n : Nat) : List Nat :=
  (List.range E.runs.length).filter fun r => heedsRetirement (E.runAt r) n

/-- The runs of a retired instance hear of it. `pending` is what it had put off. -/
def signalRetirement (E : Engine) (n : Nat) (pending : Option (Nat × Nat)) : Engine :=
  let E := (E.listening n).foldl (fun E r => E.wake (.run r)) E
  match pending with
  | some (_, r) => E.cancelDeferral r
  | none => E

def pendingOf (E : Engine) (n : Nat) : Option (Nat × Nat) :=
  (E.registry.instances[n]?).bind (·.pending)

/-- Registers a definition; gives the number of the new instance. -/
def define (E : Engine) (d : Definition) : Engine × Except RuleError Nat :=
  match E.registry.register d with
  | (_, .error e) => (E, .error e)
  | (registry, .ok placed) =>
    let E' := { E with registry }
    match placed.replaced with
    | some old =>
      ((E'.signalRetirement old (E.pendingOf old)).notice (.replaced d.id d.label),
       .ok placed.number)
    | none => (E'.notice (.registered d.id d.label d.priority.toInt), .ok placed.number)

/-- Registers a rule that is otherwise as in the settings. -/
def register (E : Engine) (id label condition action : String) (priority : Int32) :
    Engine × Except RuleError Nat :=
  E.define
    { Definition.ofDefaults id label condition action E.settings.ruleDefaults with priority }

/-- Removes a rule; gives the number of its instance. -/
def deregister (E : Engine) (id : String) : Engine × Except RuleError Nat :=
  match E.registry.deregister id with
  | (_, .error e) => (E, .error e)
  | (registry, .ok removed) =>
    let E' := { E with registry }
    ((E'.signalRetirement removed.number (E.pendingOf removed.number)).notice
      (.deregistered id removed.detached), .ok removed.number)

/-- Lets a rule observe a node. -/
def observe (E : Engine) (node id : String) : Engine × Except RuleError Unit :=
  match E.registry.observe node id with
  | (_, .error e) => (E, .error e)
  | (registry, .ok ()) => ({ E with registry }.notice (.observing id node), .ok ())

def setPaused (E : Engine) (id : String) (paused : Bool) : Engine × Except RuleError Unit :=
  match E.registry.number? id with
  | none => (E, .error (.unknownRule id))
  | some n =>
    ((E.modifyInstance n (.mapRule fun r => { r with paused })).notice
      (if paused then .paused id else .resumed id), .ok ())

/-- The counters of a rule: triggers, executions, failures. The dates of the latest trigger and execution
are left out, see `Rule`. -/
def stats (E : Engine) (id : String) : Except RuleError (Nat × Nat × Nat) :=
  match E.registry.find? id with
  | none => .error (.unknownRule id)
  | some i => .ok (i.triggers, i.executions, i.failures)

/-- Queues a trigger for the workers; the answer tells whether the queue accepted it. -/
def dispatch (E : Engine) (t : Trigger) : Engine × Except RuleError Bool :=
  match E.registry.find? t.rule with
  | none => (E, .error (.unknownRule t.rule))
  | some i =>
    let priority := i.definition.priority.toInt
    match E.queue.offer E.now t priority with
    | (_, false) =>
      ((E.notice (.offerSuppressed priority)).notice (.dispatchSuppressed t.rule t.node),
       .ok false)
    | (queue, true) => ({ E with queue }.wakeWorkers, .ok true)

/-- Removes the expired facts of all rules in force; gives their number. -/
def sweep (E : Engine) : Engine × Nat :=
  ({ E with registry := E.registry.sweep E.now }, E.registry.sweepCount E.now)

end ReactiveRules.Engine
