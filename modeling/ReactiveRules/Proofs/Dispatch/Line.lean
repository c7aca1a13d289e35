import Mathlib.Data.List.Dedup
import ReactiveRules.Proofs.Dispatch.Order

/-!
# `Proofs/Dispatch/Line.lean` — those who wait at a queue

Those who have been woken and those who have not form one line, in the order in which they last began
to wait. **Nothing but the waiter that takes a turn or goes away moves in it** (`line_offer`,
`line_resume`, `line_abort`): waking only shifts the border between the two parts.

Whoever waits found the queue empty, and since then each entry that came woke one. So there are never
more entries than waiters woken for them, unless nobody waits unwoken: `Fed` is kept by every operation.
-/

set_option autoImplicit false

namespace ReactiveRules

/-- Of a list to which an element is added, it is the last that counts. -/
theorem dedup_concat {α : Type} [DecidableEq α] (xs : List α) (a : α) :
    (xs ++ [a]).dedup = xs.dedup.filter (· != a) ++ [a] := by
  induction xs with
  | nil => simp
  | cons x rest ih =>
    by_cases hx : x = a
    · subst hx
      by_cases hm : x ∈ rest
      · simp [List.dedup_cons_of_mem, hm, ih]
      · simp [List.dedup_cons_of_notMem, List.dedup_cons_of_mem, hm, ih]
    · by_cases hm : x ∈ rest
      · simp [List.dedup_cons_of_mem, hm, ih]
      · simp [List.dedup_cons_of_notMem, hm, hx, ih]

namespace DispatchQueue

variable {α ω : Type}

/-- Those who wait, woken or not: who has waited longest comes first. -/
def line (q : DispatchQueue α ω) : List ω := q.woken ++ q.waiting

@[simp] theorem line_notify (q : DispatchQueue α ω) : q.notify.line = q.line := by
  unfold notify line
  split
  · next h => simp [h]
  · next h => simp [h]

theorem line_offer [BEq α] (q : DispatchQueue α ω) (now : Nat) (p : α) (priority : Int) :
    (q.offer now p priority).1.line = q.line := by
  unfold offer
  split
  · rfl
  · exact line_notify _

theorem line_poll (q : DispatchQueue α ω) : q.poll.1.line = q.line := by
  unfold poll
  split <;> rfl

/-- A waiter that is not served comes last. -/
theorem line_take (q : DispatchQueue α ω) (w : ω) :
    (q.take w).1.line = if (q.take w).2.isSome then q.line else q.line ++ [w] := by
  rcases q.take_cases w with ⟨e, -, hq⟩ | ⟨-, hq⟩
  · rw [hq]
    rfl
  · rw [hq]
    simp [line]

variable [BEq ω] [LawfulBEq ω]

theorem line_resume (q : DispatchQueue α ω) {w : ω} (hw : w ∈ q.woken) :
    (q.resume w).1.line
      = if (q.resume w).2.isSome then q.line.erase w else q.line.erase w ++ [w] := by
  have h := line_take { q with woken := q.woken.erase w } w
  have herase : line { q with woken := q.woken.erase w } = q.line.erase w :=
    (List.erase_append_left _ hw).symm
  rw [herase] at h
  exact h

/-- Whoever goes away leaves the others where they are. -/
theorem line_abort (q : DispatchQueue α ω) (w : ω) : (q.abort w).line = q.line.erase w := by
  unfold abort
  split
  · next hw =>
    have hw' : w ∈ q.woken := by simpa using hw
    rw [line_notify]
    exact (List.erase_append_left _ hw').symm
  · next hw =>
    have hw' : w ∉ q.woken := by simpa using hw
    exact (List.erase_append_right _ hw').symm

/-! ## Entries and waiters -/

/-- While there is someone to wake, every entry has a waiter that was woken. -/
def Fed (q : DispatchQueue α ω) : Prop := q.waiting ≠ [] → q.entries.length ≤ q.woken.length

omit [BEq ω] [LawfulBEq ω] in
/-- Waking someone makes up for one entry more. -/
theorem fed_notify {q : DispatchQueue α ω}
    (h : q.waiting ≠ [] → q.entries.length ≤ q.woken.length + 1) : q.notify.Fed := by
  unfold notify
  split
  · next hw => exact fun hne => absurd hw hne
  · next w rest hw =>
    intro _
    have hlen := h (by simp [hw])
    simpa using hlen

omit [BEq ω] [LawfulBEq ω] in
theorem Fed.offer [BEq α] {q : DispatchQueue α ω} (h : q.Fed) (now : Nat) (p : α)
    (priority : Int) : (q.offer now p priority).1.Fed := by
  unfold DispatchQueue.offer
  split
  · exact h
  · apply fed_notify
    intro hw
    have hlen := h hw
    simp only [List.length_append, List.length_singleton]
    omega

omit [BEq ω] [LawfulBEq ω] in
theorem Fed.poll {q : DispatchQueue α ω} (h : q.Fed) : q.poll.1.Fed := by
  unfold DispatchQueue.poll
  split
  · exact h
  · next e he =>
    intro hw
    exact Nat.le_trans (List.length_filter_le _ _) (h hw)

omit [BEq ω] [LawfulBEq ω] in
theorem Fed.take {q : DispatchQueue α ω} (h : q.Fed) (w : ω) : (q.take w).1.Fed := by
  rcases q.take_cases w with ⟨e, -, hq⟩ | ⟨hnil, hq⟩
  · rw [hq]
    intro hw
    exact Nat.le_trans (List.length_filter_le _ _) (h hw)
  · rw [hq]
    intro _
    simp [hnil]

/-- A waiter that was woken is served, or there is nothing to be served. -/
theorem Fed.resume {q : DispatchQueue α ω} (h : q.Fed) {w : ω} (hw : w ∈ q.woken) :
    (q.resume w).1.Fed := by
  have hlen : (q.woken.erase w).length = q.woken.length - 1 := List.length_erase_of_mem hw
  unfold DispatchQueue.resume
  rcases DispatchQueue.take_cases { q with woken := q.woken.erase w } w with
    ⟨e, hl, hq⟩ | ⟨hnil, hq⟩
  · rw [hq]
    intro hne
    have hle := h hne
    -- the least entry is gone as well as the waiter
    have hlt : (q.entries.filter (·.order != e.order)).length < q.entries.length :=
      List.length_filter_lt_length_iff_exists.mpr ⟨e, least?_mem hl, by simp⟩
    show (q.entries.filter (·.order != e.order)).length ≤ (q.woken.erase w).length
    omega
  · rw [hq]
    intro _
    have hnil' : q.entries = [] := hnil
    simp [hnil']

theorem Fed.abort {q : DispatchQueue α ω} (h : q.Fed) (w : ω) : (q.abort w).Fed := by
  unfold DispatchQueue.abort
  split
  · next hw =>
    apply fed_notify
    intro hne
    have hle := h hne
    have hlen : (q.woken.erase w).length = q.woken.length - 1 :=
      List.length_erase_of_mem (by simpa using hw)
    show q.entries.length ≤ (q.woken.erase w).length + 1
    omega
  · intro hne
    apply h
    intro hnil
    apply hne
    simp [hnil]

end DispatchQueue

end ReactiveRules
