import ReactiveRules.Engine.Schedule

/-!
# `Engine/Requests.lean` — using an engine from outside

Notifying an instance, holding its slot for a while, giving up a notification, and listening.
-/

set_option autoImplicit false

namespace ReactiveRules.Engine

/-! ## Notifications -/

/-- Notifies an instance, in force or not; gives the task that ends with the outcome. -/
def notify (E : Engine) (rule : Nat) (t : Trigger) (a : Admission) : Engine × Nat :=
  let (E, n) := E.startTask
  let (E, r) := E.spawn rule t a (.task n)
  (E.wake (.run r), n)

/-- Is the run one that waits for something, or for its first turn, on behalf of a client? -/
def isSuspended (x : Run) (c : Client) : Bool :=
  x.client == c && !x.answered &&
    match x.stage with
    | .arriving | .waiting | .delayed _ | .acting .. => true
    | _ => false

/-- A client goes away. Its run ends where it stands; an action that has begun goes on without
it. -/
def abandonRunOf (E : Engine) (c : Client) : Engine :=
  match E.runs.findIdx? (isSuspended · c) with
  | none => E
  | some r =>
    let E := E.modifyInstance (E.runAt r).rule fun i => { i with slot := i.slot.forget r }
    (E.setStage r (.ended .abandoned)).free r

def abandon (E : Engine) (task : Nat) : Engine := E.abandonRunOf (.task task)

/-- Whoever writes to the graph goes away: no further observer is notified. -/
def abandonWrite (E : Engine) (k : Nat) : Engine :=
  let E : Engine := { E with
    writes := E.writes.modify k fun x => { x with remaining := [] }
    ready := E.ready.erase (.write k) }
  E.abandonRunOf (.write k)

/-! ## Slots held from outside -/

/-- Gives back a slot that is held by name. -/
def unguard (E : Engine) (name : String) : Engine × Bool :=
  match E.guards.find? (·.1 == name) with
  | none => (E, false)
  | some (_, n) =>
    let (slot, woken) := (E.registry.instances.getD n default).slot.release
    let E := E.modifyInstance n fun i => { i with slot }
    let E := { E with guards := E.guards.filter (·.1 != name) }
    (woken.foldl (fun E w => E.wake (.run w)) E, true)

/-- Claims the slot of an instance under a name. A slot held under that name is given back; the
answer is nothing if the slot is held, else whether the name was free. -/
def guard (E : Engine) (n : Nat) (name : String) : Engine × Option Bool :=
  match (E.registry.instances[n]?).bind (·.slot.claim?) with
  | none => (E, none)
  | some slot =>
    let E := E.modifyInstance n fun i => { i with slot }
    let (E, taken) := E.unguard name
    ({ E with guards := E.guards ++ [(name, n)] }, some !taken)

/-! ## Listeners -/

def listen (E : Engine) (l : Listener) : Engine := { E with listeners := E.listeners ++ [l] }

/-- Removes a listener by its number, as often as it was added; the answer tells whether it was
there. -/
def unlisten (E : Engine) (number : Nat) : Engine × Bool :=
  ({ E with listeners := E.listeners.filter (·.number != number) },
   E.listeners.any (·.number == number))

/-! ## Instances -/

def clearFacts (E : Engine) (n : Nat) : Engine := E.modifyInstance n (.mapRule Rule.clearFacts)

/-- Makes an instance that is not in force; gives its number. -/
def addInstance (E : Engine) (d : Definition) : Engine × Nat :=
  let (registry, n) := E.registry.add d
  ({ E with registry }, n)

end ReactiveRules.Engine
