/-!
# `Dispatch/Queue.lean` — a queue that does not take the same request twice in a row

A payload that was accepted less than the window ago is not accepted again, whether or not it has
been served since. What is accepted is served by priority, the lowest value first, and by the order
of acceptance among equals.

One who finds the queue empty can wait. An accepted offer wakes the waiter that has waited longest,
or leaves one permit if nobody waits; a permit only tells the next waiter to look once more. A
waiter that is woken holds nothing before its turn: `take` looks again and, if someone else was
faster, waits again. A woken waiter that goes away passes its waking on.
-/

set_option autoImplicit false

namespace ReactiveRules

/-- A payload in the queue, with its priority and its place in the order of acceptance. -/
structure QueueEntry (α : Type) where
  payload : α
  priority : Int
  order : Nat
  deriving Repr, Inhabited

/-- Is the first entry to be served before the second? -/
def QueueEntry.before {α : Type} (a b : QueueEntry α) : Bool :=
  a.priority < b.priority || (a.priority == b.priority && a.order < b.order)

/-- A queue of payloads `α` with waiters `ω`. -/
structure DispatchQueue (α ω : Type) where
  /-- How long ago an acceptance must be for the payload to be accepted again. -/
  window : Nat
  /-- What has been accepted and not served, in the order of acceptance. -/
  entries : List (QueueEntry α) := []
  /-- When each payload was accepted last. -/
  accepted : List (α × Nat) := []
  nextOrder : Nat := 0
  permit : Bool := false
  /-- Those who wait, longest first. -/
  waiting : List ω := []
  /-- Those who have been woken and not had their turn. -/
  woken : List ω := []
  deriving Repr, Inhabited

namespace DispatchQueue

variable {α ω : Type}

def size (q : DispatchQueue α ω) : Nat := q.entries.length

/-- The number of payloads whose acceptance is remembered. -/
def tracked (q : DispatchQueue α ω) : Nat := q.accepted.length

/-- Wakes the longest waiter, or leaves a permit. -/
def notify (q : DispatchQueue α ω) : DispatchQueue α ω :=
  match q.waiting with
  | [] => { q with permit := true }
  | w :: rest => { q with waiting := rest, woken := q.woken ++ [w] }

def lastAccepted? [BEq α] (q : DispatchQueue α ω) (p : α) : Option Nat :=
  (q.accepted.find? (·.1 == p)).map (·.2)

def suppressed [BEq α] (q : DispatchQueue α ω) (now : Nat) (p : α) : Bool :=
  match q.lastAccepted? p with
  | some last => now - last < q.window
  | none => false

def accept [BEq α] (q : DispatchQueue α ω) (now : Nat) (p : α) (priority : Int) :
    DispatchQueue α ω :=
  let q : DispatchQueue α ω := { q with
    accepted := q.accepted.filter (fun a => !(a.1 == p)) ++ [(p, now)]
    entries := q.entries ++ [⟨p, priority, q.nextOrder⟩]
    nextOrder := q.nextOrder + 1 }
  q.notify

/-- Offers a payload; the answer tells whether it was accepted. -/
def offer [BEq α] (q : DispatchQueue α ω) (now : Nat) (p : α) (priority : Int) :
    DispatchQueue α ω × Bool :=
  if q.suppressed now p then (q, false) else (q.accept now p priority, true)

/-- The entry of a list that is to be served first. -/
def least? : List (QueueEntry α) → Option (QueueEntry α)
  | [] => none
  | e :: rest =>
    match least? rest with
    | none => some e
    | some f => if f.before e then some f else some e

/-- Serves the entry that is next, if there is one. -/
def poll (q : DispatchQueue α ω) : DispatchQueue α ω × Option α :=
  match least? q.entries with
  | none => (q, none)
  | some e => ({ q with entries := q.entries.filter (·.order != e.order) }, some e.payload)

/-- The turn of a waiter: it is served, or waits behind the others. -/
def take (q : DispatchQueue α ω) (w : ω) : DispatchQueue α ω × Option α :=
  let q : DispatchQueue α ω := { q with permit := false }
  match q.poll with
  | (q, some p) => (q, some p)
  | (q, none) => ({ q with waiting := q.waiting ++ [w] }, none)

def resume [BEq ω] (q : DispatchQueue α ω) (w : ω) : DispatchQueue α ω × Option α :=
  let q : DispatchQueue α ω := { q with woken := q.woken.erase w }
  q.take w

def abort [BEq ω] (q : DispatchQueue α ω) (w : ω) : DispatchQueue α ω :=
  if q.woken.contains w then
    let q : DispatchQueue α ω := { q with woken := q.woken.erase w }
    q.notify
  else { q with waiting := q.waiting.erase w }

/-- Forgets acceptances that are as old as the window or older. -/
def cleanUp (q : DispatchQueue α ω) (now : Nat) : DispatchQueue α ω :=
  { q with accepted := q.accepted.filter fun a => now - a.2 < q.window }

def cleanUpCount (q : DispatchQueue α ω) (now : Nat) : Nat := q.tracked - (q.cleanUp now).tracked

end DispatchQueue

end ReactiveRules
