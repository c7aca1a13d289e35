import ReactiveRules.Dispatch.Queue

/-!
# `Dispatch/Station.lean` — a queue with those who wait at it

A station is a queue with its waiters, signals to give up, and keepers that clean up now and then.
Signals are known by numbers. Whoever heeds a signal gives up when it is raised and also when nobody
is left to raise it. Waiters are known by numbers too, in the order they started; the names that
others know them by come and go.

Nobody does anything but in a turn. `ready` lists those who can take one, because the queue has woken
them or because their signal has come; every order of turns is a possible course of a station.
-/

set_option autoImplicit false

namespace ReactiveRules

/-- One who waits at a station. -/
structure Waiter where
  name : String
  /-- The signal on which it gives up, if there is one. -/
  heeds : Option Nat
  ended : Bool := false
  deriving DecidableEq, Repr, Inhabited

/-- One who cleans up after every period. -/
structure Keeper where
  period : Nat
  /-- When it cleans up next. -/
  next : Nat
  deriving DecidableEq, Repr, Inhabited

namespace Keeper

def start (now period : Nat) : Keeper := ⟨period, now + period⟩

/-- A keeper without a period does nothing. -/
def running (k : Keeper) : Bool := k.period != 0

/-- When the keeper cleans up for the last time up to a time. -/
def lastPass? (k : Keeper) (target : Nat) : Option Nat :=
  if k.running && k.next ≤ target then some (k.next + (target - k.next) / k.period * k.period)
  else none

end Keeper

/-- A queue of payloads `α`, and those who wait at it. -/
structure Station (α : Type) where
  now : Nat := 0
  queue : DispatchQueue α Nat
  /-- All who ever waited, by their numbers. -/
  waiters : List Waiter := []
  /-- The number of the waiter that a name stands for. -/
  names : List (String × Nat) := []
  /-- The signals that have been raised. -/
  raised : List Nat := []
  /-- The signals that nobody is left to raise. -/
  deserted : List Nat := []
  /-- Those whose signal has come and who have not had a turn since. -/
  called : List Nat := []
  keepers : List Keeper := []
  /-- Those who ended: name, and what they got. -/
  finished : List (String × Option α) := []

namespace Station

variable {α : Type}

/-- A station with an empty queue. -/
def ofWindow (window : Nat) : Station α := { queue := { window } }

/-! ## Looking -/

/-- Does the waiter still wait? -/
def pending (s : Station α) (n : Nat) : Bool :=
  match s.waiters[n]? with
  | some w => !w.ended
  | none => false

/-- The signal on which the waiter gives up. -/
def signal? (s : Station α) (n : Nat) : Option Nat := (s.waiters[n]?).bind (·.heeds)

/-- Has the signal come on which the waiter gives up? -/
def dismissed (s : Station α) (n : Nat) : Bool :=
  match s.signal? n with
  | some k => s.raised.contains k || s.deserted.contains k
  | none => false

/-- Those who heed a signal and still wait. -/
def heeding (s : Station α) (k : Nat) : List Nat :=
  (List.range s.waiters.length).filter fun n => s.pending n && s.signal? n == some k

/-- Those who can take a turn. -/
def ready (s : Station α) : List Nat := s.called ++ s.queue.woken

/-! ## Turns -/

/-- A waiter has ended. -/
def close (s : Station α) (n : Nat) : Station α :=
  { s with
    waiters := s.waiters.modify n fun w => { w with ended := true }
    called := s.called.filter (· != n) }

/-- A waiter ends with what it got. -/
def finish (s : Station α) (n : Nat) (got : Option α) : Station α :=
  match s.waiters[n]? with
  | some w => { s.close n with finished := s.finished ++ [(w.name, got)] }
  | none => s

def giveUp (s : Station α) (n : Nat) : Station α :=
  let s : Station α := { s with queue := s.queue.abort n }
  s.finish n none

/-- A waiter has had its turn at the queue: it ends if it was served, and gives up if it was not and
its signal has come. -/
def served (s : Station α) (n : Nat) (r : DispatchQueue α Nat × Option α) : Station α :=
  let s := { s with queue := r.1 }
  match r.2 with
  | some p => s.finish n (some p)
  | none => if s.dismissed n then s.giveUp n else s

/-- The turn of a waiter. One that has been woken and whose signal has come does either, as `second`
decides. -/
def turn (s : Station α) (n : Nat) (second : Bool) : Station α :=
  if s.queue.woken.contains n && !(s.dismissed n && second) then s.served n (s.queue.resume n)
  else if s.called.contains n then s.giveUp n
  else s

/-- One turn, if anyone can take one. -/
def step (s : Station α) : Station α :=
  match s.ready with
  | [] => s
  | n :: _ => s.turn n false

/-- Turns until no one can take one: every turn takes one from those who can, and only a waiter that
gives up wakes another. -/
def settle (s : Station α) : Station α :=
  (List.range s.ready.length).foldl (fun s _ => s.step) s

/-! ## Operations -/

def offer [BEq α] (s : Station α) (p : α) (priority : Int) : Station α × Bool :=
  let (queue, accepted) := s.queue.offer s.now p priority
  ({ s with queue }, accepted)

def poll (s : Station α) : Station α × Option α :=
  let (queue, p) := s.queue.poll
  ({ s with queue }, p)

/-- Adds a waiter of a new number, which takes its name from whoever had it. -/
def enter (s : Station α) (name : String) (heeds : Option Nat) : Station α :=
  { s with
    waiters := s.waiters ++ [{ name, heeds }]
    names := s.names.filter (·.1 != name) ++ [(name, s.waiters.length)] }

/-- Starts a waiter, which may heed a signal. It does not even look if the signal is raised; if only
nobody is left to raise it, it looks first or gives up at once, as `second` decides. -/
def start (s : Station α) (name : String) (heeds : Bool) (signal : Nat := 0)
    (second : Bool := false) : Station α :=
  let n := s.waiters.length
  let a := s.enter name (if heeds then some signal else none)
  if heeds && s.raised.contains signal || a.dismissed n && second then a.finish n none
  else a.served n (a.queue.take n)

/-- Cancels the waiter of a name; the answer tells whether the name stood for one. -/
def abort (s : Station α) (name : String) : Station α × Bool :=
  match s.names.find? (·.1 == name) with
  | none => (s, false)
  | some (_, n) =>
    let s : Station α := { s with names := s.names.filter (·.1 != name) }
    if s.pending n then ({ s with queue := s.queue.abort n }.close n, true) else (s, true)

/-- A signal has come: all who heed it can take a turn. -/
def call (s : Station α) (k : Nat) : Station α := { s with called := s.called ++ s.heeding k }

/-- Raises a signal; the answer is whether it was raised before, or nothing if nobody can. -/
def raise (s : Station α) (k : Nat := 0) : Station α × Option Bool :=
  if s.deserted.contains k then (s, none)
  else ({ s with raised := k :: s.raised }.call k, some (s.raised.contains k))

/-- The one who could raise a signal leaves; the answer tells whether there was one. -/
def leave (s : Station α) (k : Nat := 0) : Station α × Bool :=
  ({ s with deserted := k :: s.deserted }.call k, !s.deserted.contains k)

/-- Cleans up; the answer is the number of acceptances forgotten. -/
def cleanUp (s : Station α) : Station α × Nat :=
  ({ s with queue := s.queue.cleanUp s.now }, s.queue.cleanUpCount s.now)

def keep (s : Station α) (period : Nat) : Station α :=
  { s with keepers := s.keepers ++ [Keeper.start s.now period] }

/-- Stops the latest keeper; the answer tells whether there was one. -/
def stopKeeper (s : Station α) : Station α × Bool :=
  ({ s with keepers := s.keepers.dropLast }, !s.keepers.isEmpty)

/-- The last pass of a keeper up to a time; earlier ones forget nothing that it does not. -/
def pass (target : Nat) (s : Station α) (k : Keeper) : Station α :=
  match k.lastPass? target with
  | some last =>
    { s with
      queue := s.queue.cleanUp last
      keepers := s.keepers ++ [{ k with next := last + k.period }] }
  | none => { s with keepers := s.keepers ++ [k] }

def advance (s : Station α) (ms : Nat) : Station α :=
  let target := s.now + ms
  let s := s.keepers.foldl (pass target) { s with keepers := [] }
  { s with now := target }

def keeping (s : Station α) : List Bool := s.keepers.map Keeper.running

/-- Which keepers would still be running `ms` after the queue has been taken away: those that have
not looked for it. -/
def keepingWithout (s : Station α) (ms : Nat) : List Bool :=
  s.keepers.map fun k => k.running && s.now + ms < k.next

end Station

end ReactiveRules
