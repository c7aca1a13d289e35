import ReactiveRules.Proofs.Engine.Runs
import ReactiveRules.Proofs.Engine.Wakes

/-!
# `Proofs/Engine/Awake.lean` — nobody sleeps through a call

A run that waits for the slot or for the time of its action listens for the retirement of its
instance; one that is put off can have its deferral cancelled. **Once that has come, the run is ready
for a turn until it takes one** (`Engine.Reachable.awake`), and it stands there no more when it has
taken it.
-/

set_option autoImplicit false

namespace ReactiveRules

/-! ## The turn of one who is called -/

namespace Scene

variable {now : Nat} {S S' : Scene} {ls : List Listener}

theorem Acts.not_listens (h : Acts now S S') : S'.run.stage.listens = false := by
  cases h with
  | unread e => rfl
  | acting e => rfl

theorem Starts.not_listens (h : Starts now ls S S') : S'.run.stage.listens = false := by
  cases h with
  | rests hr => rfl
  | broke hr hv => rfl
  | vetoed hr hv => rfl
  | judges hr hv hj =>
    cases hj with
    | unread e => rfl
    | judging e => rfl

/-- A run that is called listens no more after its turn. -/
theorem Turn.not_listens (h : Turn now ls S S') (hr : S.rule.retired = true)
    (hl : S.run.stage.listens = true) : S'.run.stage.listens = false := by
  cases h with
  | gains hs hw hc ha => exact ha.not_listens
  | leaves hs hr => rfl
  | queues hs hw hc hr' => exact absurd (hr'.symm.trans hr) Bool.noConfusion
  | acts hs hd ha => exact ha.not_listens
  | forgoes hs hr => rfl
  | _ => rw [‹S.run.stage = _›] at hl; cases hl

end Scene

namespace Engine

variable {E E' : Engine}

theorem not_listens_performRun (hv : E.core.Valid) {r : Nat} (hc : E.Called r) (second : Bool) :
    ((E.performRun r second).runAt r).stage.listens = false := by
  have hr := lt_of_listens hc.2
  have h : E.At E.core (E.core.scene r) := .scene hr (hv.run _ hr)
  rcases h.performRun second with ⟨hidle, -⟩ | ⟨S, ht, hE⟩ | ⟨hd, -⟩
  · exact absurd ((hidle.listens hc.2).symm.trans hc.1) Bool.noConfusion
  · have hnum : S.number = r := ht.follows.number
    have hx : (E.performRun r second).runAt r = S.run := hnum ▸ hE.runAt
    rw [hx]
    exact ht.not_listens hc.1 hc.2
  · have hl := hc.2
    rw [show (E.runAt r).stage = .arriving from hd.stage] at hl
    cases hl

/-- A run that is called hears of it in its next turn. -/
theorem not_listens_turn (hv : E.core.Valid) {r : Nat} (hc : E.Called r)
    (hready : Job.run r ∈ E.ready) (second : Bool) :
    ((E.turn (.run r) second).runAt r).stage.listens = false := by
  unfold Engine.turn
  rw [if_pos (List.contains_iff_mem.mpr hready)]
  exact not_listens_performRun (E := { E with ready := E.ready.erase (.run r) }) hv hc second

/-- A run whose deferral is over comes past it in its next turn. -/
theorem rank_performRun (hv : E.core.Valid) {r g due : Nat} {c : Bool}
    (hs : (E.runAt r).stage = .deferred g due c) (hover : due ≤ E.now ∨ c = true) (second : Bool) :
    2 ≤ ((E.performRun r second).runAt r).stage.rank := by
  have hr : r < E.runs.length := lt_of_stage (by rw [hs]; exact Stage.noConfusion)
  have h : E.At E.core (E.core.scene r) := .scene hr (hv.run _ hr)
  rcases h.performRun second with ⟨hidle, -⟩ | ⟨S, ht, hE⟩ | ⟨hd, -⟩
  · obtain ⟨hnow, hc⟩ := hidle.deferred g due c hs
    rcases hover with hdue | hcan
    · exact absurd hdue (Nat.not_le.mpr hnow)
    · exact absurd (hcan.symm.trans hc) Bool.noConfusion
  · have hnum : S.number = r := ht.follows.number
    have hx : (E.performRun r second).runAt r = S.run := hnum ▸ hE.runAt
    rw [hx]
    exact ht.rank
  · have harr : (E.runAt r).stage = .arriving := hd.stage
    rw [hs] at harr
    cases harr

theorem rank_turn (hv : E.core.Valid) {r g due : Nat} {c : Bool}
    (hs : (E.runAt r).stage = .deferred g due c) (hover : due ≤ E.now ∨ c = true)
    (hready : Job.run r ∈ E.ready) (second : Bool) :
    2 ≤ ((E.turn (.run r) second).runAt r).stage.rank := by
  unfold Engine.turn
  rw [if_pos (List.contains_iff_mem.mpr hready)]
  exact rank_performRun (E := { E with ready := E.ready.erase (.run r) }) hv hs hover second

/-- Whoever is called or revoked is ready for a turn. -/
structure Awake (E : Engine) : Prop where
  called : ∀ r, E.Called r → Job.run r ∈ E.ready
  revoked : ∀ r, E.Revoked r → Job.run r ∈ E.ready

theorem Awake.rouses (h : E.Awake) (hw : E.Rouses E') : E'.Awake := by
  refine ⟨fun r hr => ?_, fun r hr => ?_⟩
  · rcases hw.called r hr with hc | hready
    · exact hw.ready r (h.called r hc)
    · exact hready
  · rcases hw.revoked r hr with hc | hready
    · exact hw.ready r (h.revoked r hc)
    · exact hready

/-- A turn keeps all ready but for the job that takes it. -/
theorem ready_turn (j : Job) (second : Bool) {r : Nat} (hr : Job.run r ∈ E.ready)
    (hj : j ≠ .run r) : Job.run r ∈ (E.turn j second).ready := by
  unfold Engine.turn
  split
  · exact (rouses_perform { E with ready := E.ready.erase j } j second).ready r
      ((List.mem_erase_of_ne (Ne.symm hj)).mpr hr)
  · exact hr

theorem Awake.turn (h : E.Awake) (hv : E.core.Valid) (j : Job) (second : Bool) :
    (E.turn j second).Awake := by
  have hw : ∀ r, ((E.turn j second).Called r → E.Called r ∨ Job.run r ∈ (E.turn j second).ready) ∧
      ((E.turn j second).Revoked r → E.Revoked r ∨ Job.run r ∈ (E.turn j second).ready) := by
    intro r
    unfold Engine.turn
    split
    · have hw := rouses_perform { E with ready := E.ready.erase j } j second
      exact ⟨hw.called r, hw.revoked r⟩
    · exact ⟨.inl, .inl⟩
  -- the job that takes the turn is the only one that is not ready any more;
  -- if it is the run itself, it has heard
  refine ⟨fun r hr => ?_, fun r hr => ?_⟩
  · rcases (hw r).1 hr with hc | hready
    · have hready := h.called r hc
      by_cases hj : j = .run r
      · subst hj
        exact absurd ((not_listens_turn hv hc hready second).symm.trans hr.2) Bool.noConfusion
      · exact ready_turn j second hready hj
    · exact hready
  · rcases (hw r).2 hr with hc | hready
    · have hready := h.revoked r hc
      by_cases hj : j = .run r
      · subst hj
        obtain ⟨g, due, hs⟩ := hc.stage
        obtain ⟨g', due', hs'⟩ := hr.stage
        have hrank := rank_turn hv hs (.inr rfl) hready second
        rw [hs'] at hrank
        exact absurd hrank (Nat.not_succ_le_self 1)
      · exact ready_turn j second hready hj
    · exact hready

/-- **Nobody is called or revoked without being ready for a turn.** -/
theorem Reachable.awake (h : E.Reachable) : E.Awake := by
  obtain ⟨E₀, hf, hst⟩ := h
  induction hst with
  | refl =>
    obtain ⟨_, _, _, _, _, _, rfl⟩ := hf
    exact ⟨fun r hr => Bool.noConfusion hr.2, fun r hr => Bool.noConfusion hr⟩
  | @tail E₁ E₂ h₁ hs ih =>
    have hv : E₁.core.Valid := Reachable.valid ⟨E₀, hf, h₁⟩
    cases hs with
    | turn j second => exact ih.turn hv j second
    | strike ht => exact ih.rouses (wakes_strike E₁ _).toRouses
    | pass ht => exact ih.rouses (rouses_of_same rfl rfl fun _ h => h)
    | request hq => exact ih.rouses (rouses_serve E₁ _)

end Engine

end ReactiveRules
