import Mathlib.Data.List.Induction
import Mathlib.Data.List.DropRight
import ReactiveRules.History

/-!
# `Proofs/History/Latest.lean` — a history keeps the latest records

A history is pushed records and cleared now and then. **What it keeps are the last records pushed since it was
cleared, as many as it has room for, in their order** (`History.keeps_latest`); a history without room keeps
none.

What carries it is `History.Keeps`: the records are a suffix of all that were pushed, and there are as many as
fit. A suffix is known by its length, so nothing else has to be said of which records are dropped.
-/

set_option autoImplicit false

namespace ReactiveRules

namespace History

/-! ## Making room -/

/-- The oldest records go, and no more of them than need be. -/
theorem makeRoom_eq_drop (capacity : Nat) (records : List RunRecord) :
    makeRoom capacity records = records.drop (records.length + 1 - capacity) := by
  induction records with
  | nil => exact List.drop_nil.symm
  | cons r rest ih =>
    unfold makeRoom
    split
    · next hfull =>
      have hone : (r :: rest).length + 1 - capacity = (rest.length + 1 - capacity) + 1 := by
        rw [List.length_cons]
        omega
      rw [hone, List.drop_succ_cons, ih]
    · next hfits =>
      have hnone : (r :: rest).length + 1 - capacity = 0 := by
        rw [List.length_cons]
        omega
      rw [hnone, List.drop_zero]

theorem makeRoom_suffix (capacity : Nat) (records : List RunRecord) :
    makeRoom capacity records <:+ records := by
  rw [makeRoom_eq_drop]
  exact List.drop_suffix _ _

theorem length_makeRoom {capacity : Nat} (h : 0 < capacity) (records : List RunRecord) :
    (makeRoom capacity records).length = min (capacity - 1) records.length := by
  rw [makeRoom_eq_drop, List.length_drop]
  omega

/-! ## What a history goes through -/

inductive Move where
  | push (r : RunRecord)
  | clear

namespace Move

def record? : Move → Option RunRecord
  | .push r => some r
  | .clear => none

/-- The records that were pushed since the last clearing. -/
def pushed (ms : List Move) : List RunRecord :=
  (ms.rtakeWhile (·.record?.isSome)).filterMap record?

theorem pushed_push (ms : List Move) (r : RunRecord) : pushed (ms ++ [.push r]) = pushed ms ++ [r] := by
  unfold pushed
  rw [List.rtakeWhile_concat_pos _ _ _ rfl, List.filterMap_append]
  rfl

theorem pushed_clear (ms : List Move) : pushed (ms ++ [.clear]) = [] := by
  unfold pushed
  rw [List.rtakeWhile_concat_neg _ _ _ Bool.false_ne_true]
  rfl

end Move

def play (h : History) : Move → History
  | .push r => h.push r
  | .clear => h.clear

def after (h : History) (ms : List Move) : History := ms.foldl play h

theorem after_append (h : History) (ms ns : List Move) : h.after (ms ++ ns) = (h.after ms).after ns :=
  List.foldl_append

/-- The history keeps the last of these records, as many as it has room for. -/
structure Keeps (h : History) (pushed : List RunRecord) : Prop where
  suffix : h.records <:+ pushed
  length : h.records.length = min h.capacity pushed.length

variable {h : History} {pushed : List RunRecord}

theorem capacity_play (h : History) (m : Move) : (h.play m).capacity = h.capacity := by
  cases m with
  | push r =>
    show (h.push r).capacity = _
    unfold push
    split <;> rfl
  | clear => rfl

theorem Keeps.push (hk : h.Keeps pushed) (r : RunRecord) : (h.push r).Keeps (pushed ++ [r]) := by
  unfold History.push
  split
  · next hzero =>
    have hlen : h.records.length = 0 := by
      rw [hk.length, beq_iff_eq.mp hzero, Nat.zero_min]
    refine ⟨?_, ?_⟩
    · rw [List.length_eq_zero_iff.mp hlen]
      exact List.nil_suffix
    · rw [hlen, beq_iff_eq.mp hzero, Nat.zero_min]
  · next hpos =>
    have hroom : 0 < h.capacity := Nat.pos_of_ne_zero fun h0 => hpos (beq_iff_eq.mpr h0)
    refine ⟨?_, ?_⟩
    · obtain ⟨dropped, hdropped⟩ := (makeRoom_suffix h.capacity h.records).trans hk.suffix
      exact ⟨dropped, by rw [← List.append_assoc, hdropped]⟩
    · have hlen := hk.length
      simp only [List.length_append, List.length_singleton, length_makeRoom hroom]
      omega

theorem keeps_clear (h : History) : h.clear.Keeps [] := ⟨List.suffix_refl _, (Nat.min_zero _).symm⟩

theorem keeps_after (capacity : Nat) (ms : List Move) :
    (after { capacity } ms).capacity = capacity ∧ (after { capacity } ms).Keeps (Move.pushed ms) := by
  induction ms using List.reverseRecOn with
  | nil => exact ⟨rfl, List.suffix_refl _, (Nat.min_zero _).symm⟩
  | append_singleton ms m ih =>
    obtain ⟨hcap, hk⟩ := ih
    rw [after_append]
    refine ⟨(capacity_play _ m).trans hcap, ?_⟩
    cases m with
    | push r =>
      rw [Move.pushed_push]
      exact hk.push r
    | clear =>
      rw [Move.pushed_clear]
      exact keeps_clear _

/-- **The latest records are kept.** After any pushes and clearings a history of any capacity holds the last
records pushed since it was cleared, in their order: all of them if they fit, else as many as it has room for.
The records of a rule are those of them that are of that rule, each as often, in their order. -/
theorem keeps_latest (capacity : Nat) (ms : List Move) :
    let h := after { capacity } ms
    let pushed := Move.pushed ms
    h.capacity = capacity ∧ h.records <:+ pushed ∧
    h.records.length = min capacity pushed.length ∧
    ∀ rule, (h.ofRule rule).Sublist h.records ∧
      ∀ r, (h.ofRule rule).count r = if r.rule = rule then h.records.count r else 0 := by
  intro h pushed
  obtain ⟨hcap, hk⟩ := keeps_after capacity ms
  refine ⟨hcap, hk.suffix, hcap ▸ hk.length, fun rule => ⟨List.filter_sublist, fun r => ?_⟩⟩
  unfold ofRule
  split
  · next hrule => exact List.count_filter (beq_iff_eq.mpr hrule)
  · next hother =>
    refine List.count_eq_zero.mpr fun hmem => hother ?_
    exact beq_iff_eq.mp (List.mem_filter.mp hmem).2

end History

end ReactiveRules
