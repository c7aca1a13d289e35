import ReactiveRules.Proofs.Engine.Airing
import ReactiveRules.Proofs.Engine.Callbacks
import ReactiveRules.Proofs.History.Latest

/-!
# `Proofs/Engine/Archive.lean` — the history of an engine

A history keeps the latest of the records that it is pushed since it was cleared (`History.Keeps`). In an
engine, what is pushed in a step are the records that the logs of the runs gain in it, and nothing but the
request to do so clears the history (`Engine.Step.files`). **So an engine keeps the last records that its
runs have left since it was asked to forget them, as many as it has room for**
(`Engine.Trail.history_keeps`).
-/

set_option autoImplicit false

namespace ReactiveRules

namespace Engine

variable {E E' : Engine} {r : Nat}

/-- The records that are left in a step, as the logs of the runs tell. -/
def recorded (E E' : Engine) : List RunRecord :=
  (List.range E'.runs.length).flatMap fun r => (E.gained E' r).filterMap Milestone.record?

/-- What becomes of the history in a step. -/
inductive Files (E E' : Engine) : List History.Move → Prop
  | pushes : Files E E' ((E.recorded E').map .push)
  | clears (h : E' = E.serve .clearHistory) : Files E E' [.clear]

/-! ## Steps -/

/-- If a single run comes further, its records are all. -/
theorem recorded_of_others {w : List Milestone} (hl : (E'.runAt r).log = (E.runAt r).log ++ w)
    (ho : ∀ m, m ≠ r → (E'.runAt m).log = (E.runAt m).log) :
    E.recorded E' = w.filterMap Milestone.record? := by
  have hothers : ∀ m, m ≠ r → (E.gained E' m).filterMap Milestone.record? = [] := fun m hm => by
    rw [gained_of_eq (ho m hm), List.filterMap_nil]
  rw [recorded, flatMap_range_of_others hothers, gained_of_append hl]
  split
  · rfl
  · next hr =>
    -- a run that there is not has no log to come further with
    have hnil : (E'.runAt r).log = [] :=
      congrArg Run.log (Core.runAt_of_le (C := E'.core) (Nat.le_of_not_lt hr))
    rw [(List.append_eq_nil_iff.mp (hl.symm.trans hnil)).2, List.filterMap_nil]

theorem recorded_of_logs (hl : ∀ r, (E'.runAt r).log = (E.runAt r).log) : E.recorded E' = [] :=
  recorded_of_others (r := 0) (w := []) (by rw [hl, List.append_nil]) fun m _ => hl m

/-- The records of a step are pushed if it does not clear the history. -/
theorem history_of_publishes (h : E.core.Publishes E'.core)
    (hkept : (∀ r, (E'.runAt r).log = (E.runAt r).log) → E'.history = E.history) :
    E'.history = E.history.after ((E.recorded E').map .push) := by
  have hpush : ∀ rs : List RunRecord,
      E.history.after (rs.map .push) = rs.foldl History.push E.history := fun _ => List.foldl_map
  rw [hpush]
  cases h with
  | quiet hl _ _ =>
    rw [recorded_of_logs hl]
    exact hkept hl
  | speaks hl ho _ hh =>
    rw [recorded_of_others hl ho]
    exact hh

/-- **A step pushes the records that it leaves, or is the request to clear the history.** -/
theorem Step.files (h : Step E E') (hv : E.core.Valid) :
    ∃ ms, Files E E' ms ∧ E'.history = E.history.after ms := by
  have hchange : ∀ {E' : Engine}, Core.Change E.core E'.core →
      ∃ ms, Files E E' ms ∧ E'.history = E.history.after ms := fun hc =>
    ⟨_, .pushes, history_of_publishes hc.publishes fun hl => (hc.quiet hl).2⟩
  have hquiet : ∀ {E' : Engine}, E'.runs = E.runs → E'.history = E.history →
      ∃ ms, Files E E' ms ∧ E'.history = E.history.after ms := fun hr hh =>
    ⟨_, .pushes, by rw [recorded_of_logs fun r => by rw [runAt, hr, runAt]]; exact hh⟩
  cases h with
  | turn j second => exact hchange (change_turn hv j second)
  | strike ht => exact hquiet (runs_strike E _) (history_strike E _)
  | pass ht => exact hquiet rfl rfl
  | @request q hq =>
    by_cases hc : q = .clearHistory
    · subst hc
      exact ⟨_, .clears rfl, rfl⟩
    · exact hchange (change_serve hv hq hc)

/-! ## Courses -/

/-- **An engine keeps the latest records of its runs.** However it comes along, its history is what becomes
of an empty one when each step pushes the records that it leaves, or clears it on request: the last records
left since then, in their order, all of them if they fit, else as many as there is room for. -/
theorem Trail.history_keeps {E : Nat → Engine} {last : Nat} (h : Trail E last) :
    ∃ ms : Nat → List History.Move,
      (∀ k < last, Files (E k) (E (k + 1)) (ms k)) ∧
      ∀ k ≤ last,
        (E k).history =
          History.after { capacity := (E 0).history.capacity } ((List.range k).flatMap ms) ∧
        (E k).history.capacity = (E 0).history.capacity ∧
        (E k).history.Keeps (History.Move.pushed ((List.range k).flatMap ms)) := by
  have hsome : ∀ k, ∃ m, k < last →
      Files (E k) (E (k + 1)) m ∧ (E (k + 1)).history = (E k).history.after m := by
    intro k
    by_cases hk : k < last
    · obtain ⟨m, hm⟩ := (h.step k hk).files (h.reachable (Nat.le_of_lt hk)).valid
      exact ⟨m, fun _ => hm⟩
    · exact ⟨[], fun hk' => absurd hk' hk⟩
  choose ms hms using hsome
  have hafter : ∀ k ≤ last, (E k).history =
      History.after { capacity := (E 0).history.capacity } ((List.range k).flatMap ms) := by
    intro k
    induction k with
    | zero =>
      intro _
      obtain ⟨_, _, _, _, _, _, hfresh⟩ := h.fresh
      rw [hfresh]
      rfl
    | succ k ih =>
      intro hk
      rw [List.range_succ, List.flatMap_append, List.flatMap_singleton, History.after_append,
        ← ih (Nat.le_of_succ_le hk)]
      exact (hms k hk).2
  refine ⟨ms, fun k hk => (hms k hk).1, fun k hk => ?_⟩
  obtain ⟨hcap, hkeeps⟩ := History.keeps_after (E 0).history.capacity ((List.range k).flatMap ms)
  rw [← hafter k hk] at hcap hkeeps
  exact ⟨hafter k hk, hcap, hkeeps⟩

end Engine

end ReactiveRules
