import ReactiveRules.Facts.Memory

/-!
# `Proofs/Facts/Expiry.lean` — what a memory may forget

A fact that has expired never counts again, so **two memories of which the same would be left after
a sweep give the same facts now and later** (`FactMemory.validFacts_eq`, `FactMemory.sweep_later`),
and sweeping now and then makes no difference to what counts (`FactMemory.validFacts_after`).
-/

set_option autoImplicit false

namespace ReactiveRules

namespace FactRecord

variable {r : FactRecord} {now t : Nat}

theorem expired_later (h : r.expired now = true) (ht : now ≤ t) : r.expired t = true := by
  unfold expired Validity.expiredAt at *
  split at h
  · next limit hl =>
    have hle : limit ≤ now - r.created := of_decide_eq_true h
    exact decide_eq_true (by omega)
  · cases h

theorem not_expired (h : r.valid now = true) : r.expired now = false := by
  unfold valid Validity.validAt at h
  simpa [expired] using ((Bool.and_eq_true _ _).mp h).1

end FactRecord

namespace FactMemory

variable {m m' : FactMemory} {now t : Nat}

theorem sweep_sweep (m : FactMemory) (ht : now ≤ t) : (m.sweep now).sweep t = m.sweep t := by
  unfold sweep
  rw [List.filter_filter]
  congr 1
  refine List.filter_congr fun r _ => ?_
  rw [Bool.and_eq_left_iff_imp, Bool.not_eq_true', Bool.not_eq_true']
  intro h
  cases hr : r.expired now with
  | false => rfl
  | true =>
    rw [FactRecord.expired_later hr ht] at h
    cases h

theorem sweep_later (h : m.sweep now = m'.sweep now) (ht : now ≤ t) : m.sweep t = m'.sweep t := by
  rw [← sweep_sweep m ht, h, sweep_sweep m' ht]

theorem validFacts_sweep (m : FactMemory) (now : Nat) :
    (m.sweep now).validFacts now = m.validFacts now := by
  unfold validFacts sweep
  rw [List.filter_filter]
  congr 1
  refine List.filter_congr fun r _ => ?_
  rw [Bool.and_eq_left_iff_imp]
  intro h
  rw [FactRecord.not_expired h]
  rfl

theorem validFacts_eq (h : m.sweep now = m'.sweep now) :
    m'.validFacts now = m.validFacts now := by
  rw [← validFacts_sweep m', ← h, validFacts_sweep]

theorem sweep_record (m : FactMemory) (now : Nat) (source : String) (f : Fact) (v : Validity) :
    ((m.sweep now).record now source f v).sweep now = (m.record now source f v).sweep now := by
  unfold sweep record
  simp only [List.filter_append, List.filter_filter]
  congr 2
  refine List.filter_congr fun r _ => ?_
  simp only [Bool.and_comm, Bool.and_left_comm, Bool.and_self]

theorem record_eq (h : m.sweep now = m'.sweep now) (source : String) (f : Fact) (v : Validity) :
    (m.record now source f v).sweep now = (m'.record now source f v).sweep now := by
  rw [← sweep_record, h, sweep_record]

/-! ## Histories -/

/-- What can happen to a memory. -/
inductive Move where
  | record (source : String) (fact : Fact) (validity : Validity)
  | clear
  | sweep
  /-- Time passes. -/
  | pass (ms : Nat)

/-- A memory at a time. -/
structure Moment where
  now : Nat := 0
  memory : FactMemory := .empty

namespace Moment

def play (s : Moment) : Move → Moment
  | .record source fact validity => { s with memory := s.memory.record s.now source fact validity }
  | .clear => { s with memory := .empty }
  | .sweep => { s with memory := s.memory.sweep s.now }
  | .pass ms => { s with now := s.now + ms }

def after (s : Moment) (ms : List Move) : Moment := ms.foldl play s

def validFacts (s : Moment) : List Fact := s.memory.validFacts s.now

/-- The two differ in facts that have expired. -/
structure Resembles (s s' : Moment) : Prop where
  now : s'.now = s.now
  memory : s.memory.sweep s.now = s'.memory.sweep s.now

end Moment

/-- Does a move do anything but forget what has expired? -/
def Move.matters : Move → Bool
  | .sweep => false
  | _ => true

namespace Moment

variable {s s' : Moment}

theorem Resembles.play (h : s.Resembles s') (m : Move) : (s.play m).Resembles (s'.play m) := by
  obtain ⟨hn, hm⟩ := h
  cases m with
  | record source fact validity =>
    refine ⟨hn, ?_⟩
    unfold Moment.play
    dsimp only
    rw [hn]
    exact record_eq hm source fact validity
  | clear => exact ⟨hn, rfl⟩
  | sweep =>
    refine ⟨hn, ?_⟩
    unfold Moment.play
    dsimp only
    rw [hn, hm]
  | pass ms =>
    refine ⟨congrArg (· + ms) hn, sweep_later hm (Nat.le_add_right _ _)⟩

/-- Sweeps make no difference, whichever there are and wherever they come. -/
theorem Resembles.after : ∀ (ms : List Move) {s s' : Moment}, s.Resembles s' →
    (s.after ms).Resembles (s'.after (ms.filter Move.matters)) := by
  intro ms
  induction ms with
  | nil => exact fun h => h
  | cons m rest ih =>
    intro s s' h
    cases hm : m.matters with
    | false =>
      rw [List.filter_cons_of_neg (by rw [hm]; exact Bool.false_ne_true)]
      cases m with
      | sweep =>
        refine ih (s := s.play .sweep) ⟨h.now, ?_⟩
        exact (sweep_sweep _ (Nat.le_refl _)).trans h.memory
      | _ => cases hm
    | true =>
      rw [List.filter_cons_of_pos hm]
      exact ih (h.play m)

/-- **Of histories that differ in sweeps alone, the same facts count at the end.** -/
theorem validFacts_after {ms ms' : List Move}
    (h : ms.filter Move.matters = ms'.filter Move.matters) :
    (Moment.after {} ms).validFacts = (Moment.after {} ms').validFacts := by
  have h₁ := Resembles.after ms (s := {}) ⟨rfl, rfl⟩
  have h₂ := Resembles.after ms' (s := {}) ⟨rfl, rfl⟩
  rw [h] at h₁
  unfold validFacts
  rw [← validFacts_eq h₁.memory, ← validFacts_eq h₂.memory, ← h₁.now, ← h₂.now]

end Moment

end FactMemory

end ReactiveRules
