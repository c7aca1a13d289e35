import ReactiveRules.Dispatch.Station
import ReactiveRules.Proofs.Dispatch.Line

/-!
# `Proofs/Dispatch/Moves.lean` — what can happen at a station

A station is used by its operations, and its waiters take their turns in between, in any order. `Move`
is one of these, and a `Ledger` is a station together with what its moves have come to: the offers that
were accepted, the payloads that were handed out, and who began to wait.

In a turn a waiter ends with a payload, ends without one, or waits again: **`Served` says which**, and
`Closes` that whoever ends leaves the others as they are.
-/

set_option autoImplicit false

namespace ReactiveRules.Station

variable {α : Type}

/-! ## Moves -/

inductive Move (α : Type) where
  | offer (p : α) (priority : Int)
  | poll
  /-- A waiter starts and has its first turn. -/
  | start (name : String) (heeds : Bool) (signal : Nat) (second : Bool)
  | abort (name : String)
  | raise (signal : Nat)
  | leave (signal : Nat)
  | cleanUp
  | keep (period : Nat)
  | stopKeeper
  | advance (ms : Nat)
  /-- A waiter takes a turn, if it can. -/
  | turn (n : Nat) (second : Bool)

def play [BEq α] (s : Station α) : Move α → Station α
  | .offer p priority => (s.offer p priority).1
  | .poll => s.poll.1
  | .start name heeds signal second => s.start name heeds signal second
  | .abort name => (s.abort name).1
  | .raise signal => (s.raise signal).1
  | .leave signal => (s.leave signal).1
  | .cleanUp => s.cleanUp.1
  | .keep period => s.keep period
  | .stopKeeper => s.stopKeeper.1
  | .advance ms => s.advance ms
  | .turn n second => s.turn n second

/-- The offer that a move gets accepted. -/
def accepts [BEq α] (s : Station α) : Move α → List (α × Int)
  | .offer p priority => if (s.offer p priority).2 then [(p, priority)] else []
  | _ => []

/-- The answer of a poll. -/
def polls (s : Station α) : Move α → List α
  | .poll => s.poll.2.toList
  | _ => []

/-- What the waiters got that ended on the way from one station to another. -/
def gains (s s' : Station α) : List α := (s'.finished.drop s.finished.length).filterMap (·.2)

/-- What a move hands out. -/
def hands [BEq α] (s : Station α) (m : Move α) : List α := s.polls m ++ s.gains (s.play m)

/-- The waiter that begins to wait, at its start or because it was woken and found nothing. -/
def joins [BEq α] (s : Station α) (m : Move α) : List Nat :=
  match m with
  | .start .. => if (s.play m).pending s.waiters.length then [s.waiters.length] else []
  | .turn n _ => if s.queue.woken.contains n && (s.play m).pending n then [n] else []
  | _ => []

/-- A station, and what has happened at it. -/
structure Ledger (α : Type) where
  station : Station α
  /-- The offers that were accepted, in order. -/
  accepted : List (α × Int) := []
  /-- The payloads that were handed out, in order. -/
  handed : List α := []
  /-- Who began to wait, each time it did. -/
  joined : List Nat := []

namespace Ledger

def ofWindow (window : Nat) : Ledger α := { station := .ofWindow window }

def play [BEq α] (L : Ledger α) (m : Move α) : Ledger α :=
  { station := L.station.play m
    accepted := L.accepted ++ L.station.accepts m
    handed := L.handed ++ L.station.hands m
    joined := L.joined ++ L.station.joins m }

def after [BEq α] (L : Ledger α) (ms : List (Move α)) : Ledger α := ms.foldl play L

/-- What the first ledger satisfies and every move keeps, every ledger satisfies. -/
theorem induction [BEq α] {P : Ledger α → Prop} {window : Nat} (h : P (.ofWindow window))
    (hm : ∀ L m, P L → P (L.play m)) (ms : List (Move α)) :
    P ((Ledger.ofWindow window).after ms) := by
  have hall : ∀ (ms : List (Move α)) (L : Ledger α), P L → P (L.after ms) := by
    intro ms
    induction ms with
    | nil => exact fun L hL => hL
    | cons m rest ih => exact fun L hL => ih _ (hm L m hL)
  exact hall ms _ h

end Ledger

/-! ## One waiter -/

/-- The waiter ends with what it got, and the others stay as they are. -/
structure Closes (s s' : Station α) (n : Nat) (got : Option α) : Prop where
  pending : ∀ m, s'.pending m = (s.pending m && m != n)
  dismissed : ∀ m, s'.dismissed m = s.dismissed m
  called : s'.called = s.called.filter (· != n)
  gains : s.gains s' = got.toList

theorem signal?_close (s : Station α) (n m : Nat) : (s.close n).signal? m = s.signal? m := by
  unfold signal? close
  by_cases hm : n = m
  · subst hm
    cases h : s.waiters[n]? <;> simp [h]
  · simp [hm]

theorem pending_close (s : Station α) (n m : Nat) :
    (s.close n).pending m = (s.pending m && m != n) := by
  unfold pending close
  by_cases hm : n = m
  · subst hm
    cases h : s.waiters[n]? <;> simp [h]
  · have hne : m ≠ n := fun h => hm h.symm
    simp [hm, hne]

theorem dismissed_close (s : Station α) (n m : Nat) :
    (s.close n).dismissed m = s.dismissed m := by
  unfold dismissed
  rw [signal?_close]
  rfl

/-- A waiter that still waits is known. -/
theorem getElem?_of_pending {s : Station α} {n : Nat} (h : s.pending n = true) :
    ∃ w, s.waiters[n]? = some w := by
  unfold pending at h
  split at h
  · next w hw => exact ⟨w, hw⟩
  · cases h

theorem queue_finish (s : Station α) (n : Nat) (got : Option α) :
    (s.finish n got).queue = s.queue := by
  unfold finish
  split <;> rfl

theorem closes_finish {s : Station α} {n : Nat} (hn : s.pending n = true) (got : Option α) :
    s.Closes (s.finish n got) n got := by
  obtain ⟨w, hw⟩ := getElem?_of_pending hn
  unfold finish
  rw [hw]
  refine ⟨s.pending_close n, s.dismissed_close n, rfl, ?_⟩
  cases got <;> simp [gains]

theorem queue_giveUp (s : Station α) (n : Nat) : (s.giveUp n).queue = s.queue.abort n :=
  queue_finish _ n none

theorem closes_giveUp {s : Station α} {n : Nat} (hn : s.pending n = true) :
    s.Closes (s.giveUp n) n none := by
  have h := closes_finish (s := { s with queue := s.queue.abort n }) hn none
  exact ⟨h.pending, h.dismissed, h.called, h.gains⟩

/-- How a waiter leaves its turn at the queue. -/
inductive Served (s : Station α) (n : Nat) (r : DispatchQueue α Nat × Option α) :
    Station α → Prop
  | ends {s' : Station α} {p : α} (hr : r.2 = some p) (hq : s'.queue = r.1)
    (hc : s.Closes s' n (some p)) : Served s n r s'
  | givesUp {s' : Station α} (hr : r.2 = none) (hd : s.dismissed n = true)
    (hq : s'.queue = r.1.abort n) (hc : s.Closes s' n none) : Served s n r s'
  | waits (hr : r.2 = none) (hd : s.dismissed n = false) : Served s n r { s with queue := r.1 }

theorem served_served {s : Station α} {n : Nat} (hn : s.pending n = true)
    (r : DispatchQueue α Nat × Option α) : s.Served n r (s.served n r) := by
  unfold served
  cases hr : r.2 with
  | some p =>
    have h := closes_finish (s := { s with queue := r.1 }) hn (some p)
    exact .ends hr (queue_finish _ _ _) ⟨h.pending, h.dismissed, h.called, h.gains⟩
  | none =>
    cases hd : s.dismissed n with
    | true =>
      have hd' : Station.dismissed { s with queue := r.1 } n = true := hd
      have h := closes_giveUp (s := { s with queue := r.1 }) hn
      simp only [hd', if_true]
      exact .givesUp hr hd (queue_giveUp _ _) ⟨h.pending, h.dismissed, h.called, h.gains⟩
    | false =>
      have hd' : Station.dismissed { s with queue := r.1 } n = false := hd
      simp only [hd', Bool.false_eq_true, if_false]
      exact .waits hr hd

end ReactiveRules.Station
