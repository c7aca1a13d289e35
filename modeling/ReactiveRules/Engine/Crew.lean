import ReactiveRules.Engine.Course

/-!
# `Engine/Crew.lean` — workers and writers

Starting an engine hires a crew of workers that take triggers from the queue one by one and run them
to the end. Told to stop, a worker finishes the run it is busy with, and takes nothing more; the
crew keeps house until all its workers have stopped. A write to the graph notifies the observers one
after another, each when the run of the one before has ended.
-/

set_option autoImplicit false

namespace ReactiveRules.Engine

/-! ## Workers -/

def crewAt (E : Engine) (c : Nat) : Crew := E.crews.getD c { workers := [], tick := none }

def workerAt (E : Engine) (c w : Nat) : WorkerState := (E.crewAt c).workers.getD w .stopped

/-- Wakes those who wait for a crew to stop. -/
def wakeStops (E : Engine) (c : Nat) : Engine :=
  ((List.range E.stops.length).filter fun k => ((E.stops.getD k default).crew == c)).foldl
    (fun E k => E.wake (.stop k)) E

def stopWorker (E : Engine) (c w : Nat) : Engine :=
  ((E.setWorker c w .stopped).notice (.workerStopped w)).wakeStops c

/-- A worker hands a trigger to the instance in force, if there is one. -/
def assign (E : Engine) (c w : Nat) (t : Trigger) : Engine :=
  match E.registry.number? t.rule with
  | none =>
    ((E.notice (.dispatchUnknown w t.rule)).setWorker c w .looking).goOn (.worker c w)
  | some n =>
    let (E, r) := E.spawn n t .wait (.worker c w)
    (E.setWorker c w (.busy r)).goOn (.run r)

/-- A worker has had its turn at the queue. -/
def served (E : Engine) (c w : Nat) (r : DispatchQueue Trigger (Nat × Nat) × Option Trigger) :
    Engine :=
  let E := { E with queue := r.1 }
  match r.2 with
  | some t => E.assign c w t
  | none => E.setWorker c w .idle

/-- A worker leaves the queue and stops. -/
def leave (E : Engine) (c w : Nat) : Engine :=
  ({ E with queue := E.queue.abort (c, w) }.wakeWorkers).stopWorker c w

/-- The turn of a worker. One that has been woken and told to stop at once does either, as `second`
decides. -/
def performWorker (E : Engine) (c w : Nat) (second : Bool) : Engine :=
  let shutdown := (E.crewAt c).shutdown
  match E.workerAt c w with
  | .looking =>
    if shutdown then E.stopWorker c w else E.served c w (E.queue.take (c, w))
  | .idle =>
    if E.queue.woken.contains (c, w) && !(shutdown && second) then
      let E := E.served c w (E.queue.resume (c, w))
      if shutdown && E.workerAt c w == .idle then E.leave c w else E
    else if shutdown then E.leave c w
    else E
  | _ => E

/-! ## Start and stop -/

def hire (E : Engine) : Engine :=
  let c := E.crews.length
  let n := E.settings.dispatchWorkers.toNat
  let crew : Crew :=
    { workers := List.replicate n .looking
      tick := some (E.now + E.settings.housekeepingInterval.toNat) }
  let E := { E with crews := E.crews ++ [crew], running := some c }
  let E := E.notice (.started n E.settings.housekeepingInterval.toNat)
  (List.range n).foldl (fun E w => E.wake (.worker c w)) E

def startWork (E : Engine) : Engine × Except RuleError Unit :=
  match E.running with
  | some _ => (E, .error .alreadyRunning)
  | none => (E.hire, .ok ())

def dismiss (E : Engine) (c : Nat) : Engine :=
  let E := { E with
    running := none
    crews := E.crews.modify c fun x => { x with shutdown := true } }
  (List.range (E.crewAt c).workers.length).foldl (fun E w => E.wake (.worker c w)) E

/-- Stops the engine; the task ends when all workers have stopped. -/
def stopWork (E : Engine) : Engine × Nat :=
  let (E, n) := E.startTask
  match E.running with
  | none => (E.finishTask n (.refused .notRunning), n)
  | some c =>
    let k := E.stops.length
    let request : StopRequest := { crew := c, task := n }
    let E : Engine := { E with stops := E.stops ++ [request] }
    ((E.dismiss c).wake (.stop k), n)

/-- The turn of one who waits for a crew to stop. -/
def performStop (E : Engine) (k : Nat) : Engine :=
  match E.stops[k]? with
  | none => E
  | some s =>
    if s.answered || !(E.crewAt s.crew).workers.all (· == .stopped) then E
    else
      let E := { E with
        crews := E.crews.modify s.crew fun x => { x with tick := none }
        stops := E.stops.set k { s with answered := true } }
      (E.notice .stopped).finishTask s.task .stopped

/-! ## Housekeeping -/

/-- Forgets what can never matter again: old acceptances and expired facts. -/
def keepHouse (E : Engine) : Engine :=
  let forgotten := E.queue.cleanUpCount E.now
  let (E, swept) := E.sweep
  let E := { E with queue := E.queue.cleanUp E.now }
  if forgotten > 0 || swept > 0 then E.notice (.housekeeping forgotten swept) else E

def tickCrew (E : Engine) (c : Nat) : Engine :=
  if (E.crewAt c).tick == some E.now then
    let E := E.keepHouse
    { E with
      crews := E.crews.modify c fun x =>
        { x with tick := some (E.now + E.settings.housekeepingInterval.toNat) } }
  else E

/-! ## Writes -/

/-- Writes to the graph; the task ends when all observers have been notified. -/
def write (E : Engine) (aspect : Aspect) (node name : String) (value : Json) : Engine × Nat :=
  let (E, n) := E.startTask
  let (host, told) : Option (Graph Unit) × List (Observer Unit) := match E.registry.host with
    | some g => let (g, told) := g.write node aspect name value; (some g, told)
    | none => (none, [])
  let k := E.writes.length
  let begun : GraphWrite :=
    { node, name, value, aspect, remaining := told.map (·.key), task := n }
  let E : Engine := { E with registry := { E.registry with host }, writes := E.writes ++ [begun] }
  (E.wake (.write k), n)

/-- The turn of a write: the next observer is notified. -/
def performWrite (E : Engine) (k : Nat) : Engine :=
  match E.writes[k]? with
  | none => E
  | some x =>
    match x.remaining with
    | [] => E.finishTask x.task .written
    | rule :: rest =>
      let E := { E with writes := E.writes.set k { x with remaining := rest } }
      match E.registry.number? rule with
      | none => (E.notice (.droppedUnknown rule)).goOn (.write k)
      | some n =>
        let t : Trigger := ⟨rule, x.node, x.name, x.value, x.aspect⟩
        let (E, r) := E.spawn n t .dropIfBusy (.write k)
        E.goOn (.run r)

end ReactiveRules.Engine
