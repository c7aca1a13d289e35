import Mathlib.Data.List.Nodup
import ReactiveRules.Dispatch.Queue

/-!
# `Proofs/Dispatch/Order.lean` — what is served next

The entries of a queue are in the order of their acceptance, and the one that is served is least by
priority and, among equals, by that order (`DispatchQueue.Ordered.least`). An operation of the queue
adds one entry at the end, takes the least away, or leaves the entries alone: **`Deals` says which**,
with the payload that came in or went out.
-/

set_option autoImplicit false

namespace ReactiveRules

namespace QueueEntry

variable {α : Type} {a b c : QueueEntry α}

theorem before_iff : a.before b = true ↔
    a.priority < b.priority ∨ a.priority = b.priority ∧ a.order < b.order := by
  simp [before]

/-- Whoever is not before one that is not before a third is not before the third. -/
theorem not_before_trans (h : a.before b = false) (h' : b.before c = false) :
    a.before c = false := by
  rw [← Bool.not_eq_true, before_iff] at *
  omega

theorem not_before_of_before (h : a.before b = true) : b.before a = false := by
  rw [← Bool.not_eq_true, before_iff]
  rw [before_iff] at h
  omega

/-- Of two entries that were accepted one after the other, one is before the other. -/
theorem before_of_order_ne (h : b.before a = false) (hne : a.order ≠ b.order) :
    a.before b = true := by
  rw [← Bool.not_eq_true, before_iff] at h
  rw [before_iff]
  omega

end QueueEntry

namespace DispatchQueue

variable {α ω : Type}

theorem least?_eq_none {es : List (QueueEntry α)} (h : least? es = none) : es = [] := by
  cases es with
  | nil => rfl
  | cons e rest =>
    unfold least? at h
    split at h
    · cases h
    · split at h <;> cases h

theorem least?_mem {es : List (QueueEntry α)} {e : QueueEntry α} (h : least? es = some e) :
    e ∈ es := by
  induction es generalizing e with
  | nil => cases h
  | cons a rest ih =>
    unfold least? at h
    split at h
    · cases h
      exact List.mem_cons_self
    · next f hf =>
      split at h
      · cases h
        exact List.mem_cons_of_mem _ (ih hf)
      · cases h
        exact List.mem_cons_self

/-- Nothing is to be served before the least entry. -/
theorem not_before_least {es : List (QueueEntry α)} {e : QueueEntry α} (h : least? es = some e) :
    ∀ f ∈ es, f.before e = false := by
  induction es generalizing e with
  | nil => cases h
  | cons a rest ih =>
    have hself : ∀ x : QueueEntry α, x.before x = false := by simp [QueueEntry.before]
    unfold least? at h
    split at h
    · next hnone =>
      cases h
      rw [least?_eq_none hnone]
      simpa using hself a
    · next f hf =>
      split at h
      · next hlt =>
        cases h
        intro g hg
        rcases List.mem_cons.mp hg with rfl | hg
        · exact QueueEntry.not_before_of_before hlt
        · exact ih hf g hg
      · next hlt =>
        cases h
        intro g hg
        rcases List.mem_cons.mp hg with rfl | hg
        · exact hself g
        · exact QueueEntry.not_before_trans (ih hf g hg) (by simpa using hlt)

/-- The entries are in the order in which they were accepted. -/
def Ordered (q : DispatchQueue α ω) : Prop := q.entries.Pairwise (·.order < ·.order)

/-- An entry is known by its place in the order. -/
theorem Ordered.eq_of_order_eq {q : DispatchQueue α ω} (h : q.Ordered) {e f : QueueEntry α}
    (he : e ∈ q.entries) (hf : f ∈ q.entries) (ho : e.order = f.order) : e = f := by
  have hnodup : (q.entries.map (·.order)).Nodup :=
    List.pairwise_map.mpr (h.imp fun hlt => Nat.ne_of_lt hlt)
  exact List.inj_on_of_nodup_map hnodup he hf ho

/-- **The least entry is before every other.** -/
theorem Ordered.least {q : DispatchQueue α ω} (h : q.Ordered) {e : QueueEntry α}
    (hl : least? q.entries = some e) : ∀ f ∈ q.entries, f = e ∨ e.before f = true := by
  intro f hf
  by_cases ho : e.order = f.order
  · exact .inl (h.eq_of_order_eq (least?_mem hl) hf ho).symm
  · exact .inr (QueueEntry.before_of_order_ne (not_before_least hl f hf) ho)

/-- Serving an entry takes that one away, and no other. -/
theorem Ordered.perm_serve {q : DispatchQueue α ω} (h : q.Ordered) {e : QueueEntry α}
    (he : e ∈ q.entries) : q.entries.Perm (e :: q.entries.filter (·.order != e.order)) := by
  obtain ⟨pre, post, hs⟩ := List.append_of_mem he
  have hpair := h
  rw [Ordered, hs, List.pairwise_append, List.pairwise_cons] at hpair
  obtain ⟨-, ⟨hpost, -⟩, hpre⟩ := hpair
  have hkeep₁ : pre.filter (·.order != e.order) = pre :=
    List.filter_eq_self.mpr fun f hf => by
      have := hpre f hf e List.mem_cons_self
      simp; omega
  have hkeep₂ : post.filter (·.order != e.order) = post :=
    List.filter_eq_self.mpr fun f hf => by
      have := hpost f hf
      simp; omega
  rw [hs, List.filter_append, List.filter_cons, hkeep₁, hkeep₂]
  simp

/-! ## What an operation does to the entries -/

/-- What came in and went out: the offers that were accepted, and the payloads that were served. -/
inductive Deals (q q' : DispatchQueue α ω) : List (α × Int) → List α → Prop
  | rest (he : q'.entries = q.entries) (hn : q'.nextOrder = q.nextOrder) : Deals q q' [] []
  | accepts (p : α) (priority : Int) (he : q'.entries = q.entries ++ [⟨p, priority, q.nextOrder⟩])
    (hn : q'.nextOrder = q.nextOrder + 1) : Deals q q' [(p, priority)] []
  | serves {e : QueueEntry α} (hl : least? q.entries = some e)
    (he : q'.entries = q.entries.filter (·.order != e.order))
    (hn : q'.nextOrder = q.nextOrder) : Deals q q' [] [e.payload]

/-- What comes in and goes out is a matter of the entries alone. -/
theorem Deals.of_entries {q q₁ q' : DispatchQueue α ω} {a : List (α × Int)} {b : List α}
    (h : q₁.Deals q' a b) (he : q₁.entries = q.entries) (hn : q₁.nextOrder = q.nextOrder) :
    q.Deals q' a b := by
  cases h with
  | rest he' hn' => exact .rest (he'.trans he) (hn'.trans hn)
  | accepts p priority he' hn' =>
    refine .accepts p priority (he'.trans ?_) (hn'.trans ?_)
    · rw [he, hn]
    · rw [hn]
  | serves hl he' hn' =>
    refine .serves (he ▸ hl) (he'.trans ?_) (hn'.trans hn)
    rw [he]

variable (q : DispatchQueue α ω)

@[simp] theorem entries_notify : q.notify.entries = q.entries := by
  unfold notify
  split <;> rfl

@[simp] theorem nextOrder_notify : q.notify.nextOrder = q.nextOrder := by
  unfold notify
  split <;> rfl

@[simp] theorem accepted_notify : q.notify.accepted = q.accepted := by
  unfold notify
  split <;> rfl

theorem deals_offer [BEq α] (now : Nat) (p : α) (priority : Int) :
    q.Deals (q.offer now p priority).1
      (if (q.offer now p priority).2 then [(p, priority)] else []) [] := by
  unfold offer
  split
  · exact .rest rfl rfl
  · exact .accepts p priority (entries_notify _) (nextOrder_notify _)

theorem deals_poll : q.Deals q.poll.1 [] q.poll.2.toList := by
  unfold poll
  split
  · exact .rest rfl rfl
  · next hl => exact .serves hl rfl rfl

/-- A waiter that takes its turn is served the least entry, or finds none and waits. -/
theorem take_cases (w : ω) :
    (∃ e, least? q.entries = some e ∧
      q.take w = ({ q with permit := false, entries := q.entries.filter (·.order != e.order) },
        some e.payload)) ∨
      q.entries = [] ∧
        q.take w = ({ q with permit := false, waiting := q.waiting ++ [w] }, none) := by
  unfold take poll
  cases hl : least? q.entries with
  | none => exact .inr ⟨least?_eq_none hl, by simp [hl]⟩
  | some e => exact .inl ⟨e, rfl, by simp [hl]⟩

/-! ### What does not concern acceptances -/

theorem accepted_take (w : ω) : (q.take w).1.accepted = q.accepted := by
  rcases q.take_cases w with ⟨e, -, hq⟩ | ⟨-, hq⟩ <;> rw [hq]

theorem accepted_poll : q.poll.1.accepted = q.accepted := by
  unfold poll
  split <;> rfl

theorem accepted_resume [BEq ω] (w : ω) : (q.resume w).1.accepted = q.accepted :=
  accepted_take { q with woken := q.woken.erase w } w

theorem accepted_abort [BEq ω] (w : ω) : (q.abort w).accepted = q.accepted := by
  unfold abort
  split
  · exact accepted_notify _
  · rfl

/-! ### Turns -/

theorem deals_take (w : ω) : q.Deals (q.take w).1 [] (q.take w).2.toList := by
  rcases q.take_cases w with ⟨e, hl, hq⟩ | ⟨-, hq⟩
  · rw [hq]
    exact .serves hl rfl rfl
  · rw [hq]
    exact .rest rfl rfl

theorem deals_resume [BEq ω] (w : ω) : q.Deals (q.resume w).1 [] (q.resume w).2.toList :=
  (deals_take { q with woken := q.woken.erase w } w).of_entries rfl rfl

theorem deals_abort [BEq ω] (w : ω) : q.Deals (q.abort w) [] [] := by
  unfold abort
  split
  · exact .rest (entries_notify _) (nextOrder_notify _)
  · exact .rest rfl rfl

end DispatchQueue

end ReactiveRules
