import ReactiveRules.Proofs.Engine.Slots

/-!
# `Proofs/Engine/Rest.lean` — how long a rule rests

When an attempt at the action of an instance has ended, the instance rests for its refractory
period. Whether it does is looked at when a notification arrives, when its run has claimed the slot
and when the condition has been judged, but not after the action has been put off. **So an attempt
keeps the period unless its run had the action put off when the other attempt ended**
(`Core.Resting.attempt`), and only the runs of a parallel rule can be in that order.
-/

set_option autoImplicit false

namespace ReactiveRules

open Relation (ReflTransGen)

/-- An instance that does not rest has rested since any attempt that has ended. -/
theorem Rule.rested {i : Rule} {t u now : Nat} (hu : i.lastCompleted = some u) (htu : t ≤ u)
    (htn : t ≤ now) (hr : i.inRefractory now = false) :
    t + i.definition.refractoryPeriod ≤ now := by
  have h : ¬ now - u < i.definition.refractoryPeriod := by simpa [inRefractory, hu] using hr
  omega

/-! ## After an attempt -/

/-- An attempt of the instance `n` has ended, at the time `t` or later. What `old` holds of are runs
that had their action put off by then, and until when. -/
structure Core.Resting (n t : Nat) (old : Nat → Nat → Prop) (C : Core) : Prop where
  lt : n < C.instances.length
  now : t ≤ C.now
  completed : ∃ u, t ≤ u ∧ (C.ruleAt n).lastCompleted = some u
  delayed : ∀ r due, r < C.runs.length → (C.runAt r).rule = n → (C.runAt r).stage = .delayed due →
    old r due ∨ t + (C.ruleAt n).definition.refractoryPeriod ≤ C.now

namespace Core.Resting

variable {n t : Nat} {old : Nat → Nat → Prop} {C C' : Core}

/-- **Whoever has the action put off after the attempt has seen that the rule does not rest.** -/
theorem step (h : Resting n t old C) (hv : C.Valid) (hs : C.Step C') : Resting n t old C' := by
  have hf := hs.follows hv
  have hrule := hf.rule n h.lt
  have hlt : n < C'.instances.length := Nat.lt_of_lt_of_le h.lt hf.instances
  have hnow : t ≤ C'.now := Nat.le_trans h.now hf.now
  have hcompleted : ∃ u, t ≤ u ∧ (C'.ruleAt n).lastCompleted = some u := by
    obtain ⟨u, hu, hl⟩ := h.completed
    rcases hrule.lastCompleted with hl' | ⟨v, hv, -, hl'⟩
    · exact ⟨u, hu, hl'.trans hl⟩
    · exact ⟨v, Nat.le_trans h.now hv, hl'⟩
  refine ⟨hlt, hnow, hcompleted, ?_⟩
  intro r due hr hn hd
  -- it had its action put off already, or has just looked at the rest
  obtain ⟨hr', hd' | ⟨hrest, -⟩⟩ := hs.delayed hv hr hd
  · have hn' : (C.runAt r).rule = n := (hf.run r hr').rule.symm.trans hn
    rcases h.delayed r due hr' hn' hd' with ho | hle
    · exact .inl ho
    · rw [hrule.definition]
      exact .inr (Nat.le_trans hle hf.now)
  · obtain ⟨u, hu, hl⟩ := hcompleted
    rw [hn] at hrest
    exact .inr (Rule.rested hl hu hnow hrest)

/-- **An attempt keeps the period unless its run is one of the old.** -/
theorem attempt {E E' : Engine} {r : Nat} (h : Resting n t old E.core) (hv : E.core.Valid)
    (hs : Engine.Step E E') (ha : E.Attempts E' r) (hn : (E.runAt r).rule = n) :
    t + (E.core.ruleAt n).definition.refractoryPeriod ≤ E.now ∨
      ∃ due, old r due ∧ due ≤ E.now ∧ (E.runAt r).stage = .delayed due := by
  obtain ⟨hr, hreach, -⟩ := (hs.core hv).attempt ha
  cases hreach with
  | @delayed due hstage hdue =>
    rcases h.delayed r due hr hn hstage with ho | hle
    · exact .inr ⟨due, ho, hdue, hstage⟩
    · exact .inl hle
  | judged hstage hrest hdelay =>
    obtain ⟨u, hu, hl⟩ := h.completed
    have hrule : (E.core.scene r).rule = E.core.ruleAt n := congrArg E.core.ruleAt hn
    rw [hrule] at hrest
    exact .inl (Rule.rested hl hu h.now hrest)

end Core.Resting

/-- Only a rule that puts its action off has runs whose action is put off. -/
def Core.Delays (C : Core) : Prop :=
  ∀ r due, r < C.runs.length → (C.runAt r).stage = .delayed due →
    (C.ruleAt (C.runAt r).rule).definition.executionDelay ≠ 0

theorem Core.Delays.step {C C' : Core} (h : C.Delays) (hv : C.Valid) (hs : C.Step C') :
    C'.Delays := by
  have hf := hs.follows hv
  intro r due hr hd
  obtain ⟨hr', hd' | ⟨-, hdelay, -⟩⟩ := hs.delayed hv hr hd
  · rw [(hf.run r hr').rule, (hf.rule _ (hv.run r hr')).definition]
    exact h r due hr' hd'
  · exact hdelay

/-! ## Two runs at once -/

/-- Two runs of one instance are in flight at once only if it is parallel. -/
theorem Core.Counted.parallel_of_two {C : Core} (h : C.Counted) (hv : C.Valid) {r m : Nat}
    (hr : r < C.runs.length) (hm : m < C.runs.length) (hrm : r ≠ m)
    (hn : (C.runAt m).rule = (C.runAt r).rule) (hir : (C.runAt r).stage.inFlight = true)
    (him : (C.runAt m).stage.inFlight = true) :
    (C.ruleAt (C.runAt r).rule).definition.parallel = true := by
  have hlt := hv.run r hr
  by_contra hp
  have hpar : (C.ruleAt (C.runAt r).rule).slot.parallel = false := by
    rw [h.parallel _ hlt]
    simpa using hp
  have hone := h.one _ hlt hpar
  have hheld := h.held _ hlt
  have hor : occupies (C.runAt r).rule (C.runAt r) = true := by simp [occupies, hir]
  have hom : occupies (C.runAt r).rule (C.runAt m) = true := by simp [occupies, hn, him]
  -- two occupants of a slot that is held once at most
  have htwo : 2 ≤ C.occupants (C.runAt r).rule := by
    rcases Nat.lt_or_gt_of_ne hrm with hlt | hlt
    · exact countP_two default hlt hm hor hom
    · exact countP_two default hlt hr hom hor
  omega

namespace Engine

variable {E E₁ E₂ E₃ : Engine} {r m : Nat}

theorem Reachable.delays (h : E.Reachable) : E.core.Delays := by
  refine h.induction ?_ fun _ _ hv hd hs => hd.step hv hs
  rintro E₀ ⟨_, _, _, _, _, _, rfl⟩ r due hr
  cases hr

/-! ## From the end of an attempt on -/

/-- When an attempt has ended, the rule rests from then on; the runs that had their action put off
are the old ones. -/
theorem Reachable.resting (hE : E.Reachable) (hs : Step E E₁) (hc : E.Concludes E₁ r) :
    Core.Resting (E.runAt r).rule E.now (fun m due => (E₁.runAt m).stage = .delayed due)
      E₁.core := by
  have hv := hE.valid
  have hf := (hs.core hv).follows hv
  obtain ⟨hr, -, S, ht, hput, hx, hl, -⟩ := (hs.core hv).conclusion hc
  have hn := hv.run r hr
  have hruleS : S.run.rule = (E.runAt r).rule := ht.follows.rule
  have hi : E₁.core.ruleAt (E.runAt r).rule = S.rule := by
    rw [hput, Core.ruleAt_put _ (hruleS ▸ hn), if_pos hruleS]
  refine ⟨Nat.lt_of_lt_of_le hn hf.instances, hf.now, ⟨E.now, Nat.le_refl _, ?_⟩, ?_⟩
  · rw [hi]
    exact hl
  · intro m due _ _ hd
    exact .inl hd

/-- A run that has its action put off when an attempt of its instance ends is another run than that of
the attempt, and both were in flight. -/
theorem Reachable.overlap (hE : E.Reachable) (hs : Step E E₁) (hc : E.Concludes E₁ r)
    (hn : (E₁.runAt m).rule = (E.runAt r).rule) {due : Nat}
    (hd : (E₁.runAt m).stage = .delayed due) :
    (E.runAt m).stage = .delayed due ∧ (E.ruleOf r).definition.parallel = true ∧
      (E.ruleOf r).definition.executionDelay ≠ 0 := by
  have hv := hE.valid
  obtain ⟨hr, hir, S, ht, hput, hx, -, ho⟩ := (hs.core hv).conclusion hc
  have hnum : S.number = r := ht.follows.number
  -- the run of the attempt is over, so it is not the one that is put off
  have hrm : r ≠ m := by
    rintro rfl
    rw [← hx, core_runAt, Run.isOver, hd] at ho
    cases ho
  have hsame : E₁.core.runAt m = E.core.runAt m := by
    rw [hput]
    exact Core.runAt_put_ne _ (hnum ▸ hrm)
  have hd' : (E.core.runAt m).stage = .delayed due := by rw [← hsame]; exact hd
  have hn' : (E.core.runAt m).rule = (E.core.runAt r).rule := by rw [← hsame]; exact hn
  have hm : m < E.core.runs.length := lt_of_delayed hd'
  have him : (E.core.runAt m).stage.inFlight = true := by rw [hd']; rfl
  refine ⟨hd', hE.counted.parallel_of_two hv hr hm hrm hn' hir him, ?_⟩
  have hdelay := hE.delays m due hm hd'
  rw [hn'] at hdelay
  exact hdelay

/-- **After an attempt has ended, another keeps the refractory period, or its run had the action put
off at that time.** -/
theorem Reachable.attempt_after (hE : E.Reachable) (hs : Step E E₁) (hc : E.Concludes E₁ r)
    (hst : Steps E₁ E₂) (hs₂ : Step E₂ E₃) (ha : E₂.Attempts E₃ m)
    (hn : (E₂.runAt m).rule = (E.runAt r).rule) :
    E.now + (E.ruleOf r).definition.refractoryPeriod ≤ E₂.now ∨
      ((E.ruleOf r).definition.parallel = true ∧ (E.ruleOf r).definition.executionDelay ≠ 0 ∧
        ∃ due, due ≤ E₂.now ∧ (E.runAt m).stage = .delayed due ∧
          (E₂.runAt m).stage = .delayed due) := by
  have hE₁ := hE.step hs
  have hv := hE.valid
  have hrest := hst.induction hE₁ (hE.resting hs hc) fun _ _ hv h hs => h.step hv hs
  have hdef : (E₂.core.ruleAt (E.runAt r).rule).definition = (E.ruleOf r).definition := by
    have hf := ((hs.core hv).follows hv).trans (hst.follows hE₁)
    obtain ⟨hr, -⟩ := (hs.core hv).conclusion hc
    exact (hf.rule _ (hv.run r hr)).definition
  rcases hrest.attempt (hE₁.steps hst).valid hs₂ ha hn with hle | ⟨due, hold, hdue, hd⟩
  · rw [hdef] at hle
    exact .inl hle
  · have hm : m < E₁.runs.length := lt_of_delayed hold
    have hn₁ : (E₁.runAt m).rule = (E.runAt r).rule :=
      ((hst.follows hE₁).run m hm).rule.symm.trans hn
    obtain ⟨hd', hp, he⟩ := hE.overlap hs hc hn₁ hold
    exact .inr ⟨hp, he, due, hdue, hd', hd⟩

/-! ## When the time of an action has come

The rest is not looked at any more. -/

theorem performRun_delayed {due : Nat} (hd : (E.runAt m).stage = .delayed due) (hdue : due ≤ E.now)
    (hr : (E.ruleOf m).retired = false) (second : Bool) : E.performRun m second = E.act m := by
  have hm : m < E.runs.length := lt_of_delayed hd
  have hx : E.runs[m]? = some (E.runAt m) := by simp [runAt, hm]
  unfold performRun
  rw [hx]
  dsimp only
  rw [hd]
  dsimp only
  unfold wakeDelayed
  simp [hdue, hr]

theorem attempts_act (hv : E.core.Valid) (hm : m < E.runs.length) : E.Attempts (E.act m) m := by
  have h : E.At E.core (E.core.scene m) := .scene hm (hv.run _ hm)
  obtain ⟨S, ha, hE⟩ := h.act
  have hnum : S.number = m := ha.follows.number
  have hx : (E.act m).runAt m = S.run := hnum ▸ hE.runAt
  have hcount : S.run.attempts = (E.runAt m).attempts + 1 := ha.attempt
  show (E.runAt m).attempts < ((E.act m).runAt m).attempts
  rw [hx, hcount]
  exact Nat.lt_succ_self _

/-- **A run attempts its action when it takes its turn after the delay**, whatever has happened to the
rule in between, save that it was retired. -/
theorem Reachable.attempts_delayed (hE : E.Reachable) {due : Nat}
    (hd : (E.runAt m).stage = .delayed due) (hdue : due ≤ E.now)
    (hr : (E.ruleOf m).retired = false) (hready : .run m ∈ E.ready) (second : Bool) :
    E.Attempts (E.turn (.run m) second) m := by
  have hm : m < E.runs.length := lt_of_delayed hd
  have hturn : E.turn (.run m) second = { E with ready := E.ready.erase (.run m) }.act m := by
    unfold turn
    rw [if_pos (List.contains_iff_mem.mpr hready)]
    exact performRun_delayed (E := { E with ready := E.ready.erase (.run m) }) hd hdue hr second
  rw [hturn]
  exact attempts_act (E := { E with ready := E.ready.erase (.run m) }) hE.valid hm

/-- **The refractory period is kept after every attempt, except by the runs of a parallel rule that
had their action put off when the attempt ended; these attempt theirs when they take their turn.** -/
theorem rest_kept_unless_delayed (hE : E.Reachable) (hs : Step E E₁) (hc : E.Concludes E₁ r) :
    (∀ (E₂ E₃ : Engine) (m : Nat), Steps E₁ E₂ → Step E₂ E₃ → E₂.Attempts E₃ m →
      (E₂.runAt m).rule = (E.runAt r).rule →
      E.now + (E.ruleOf r).definition.refractoryPeriod ≤ E₂.now ∨
        ((E.ruleOf r).definition.parallel = true ∧
          (E.ruleOf r).definition.executionDelay ≠ 0 ∧
          ∃ due, due ≤ E₂.now ∧ (E.runAt m).stage = .delayed due ∧
            (E₂.runAt m).stage = .delayed due)) ∧
      ∀ (E₂ : Engine) (m due : Nat) (second : Bool), Steps E₁ E₂ →
        (E₂.runAt m).stage = .delayed due → due ≤ E₂.now → (E₂.ruleOf m).retired = false →
        .run m ∈ E₂.ready → E₂.Attempts (E₂.turn (.run m) second) m := by
  refine ⟨?_, ?_⟩
  · intro E₂ E₃ m hst hs₂ ha hn
    exact hE.attempt_after hs hc hst hs₂ ha hn
  · intro E₂ m due second hst hd hdue hr hready
    exact ((hE.step hs).steps hst).attempts_delayed hd hdue hr hready second

/-- A rule with two runs at once, whose actions are put off by less than the rule rests. -/
def overlapping : Definition :=
  { prompt with executionDelay := 10, refractoryPeriod := 100, parallel := true }

/-- It is notified twice, 5 ms apart, and the first of its runs has begun its action. -/
def overlap : Engine :=
  let E := ((blank.serve (.define overlapping)).serve (.notify 0 change .dropIfBusy)).settle
  ((({ E with now := 5 }.serve (.notify 0 change .dropIfBusy)).settle).strike 10).next

/-- The delay of the second is over. -/
def overlapDue : Engine := overlap.next.settle.strike 15

theorem reachable_overlap : overlap.Reachable := by
  have h₁ := fresh_blank.reachable.step (.request (q := .define overlapping) trivial)
  have h₂ := h₁.step (.request (admits_notify (n := 0) (by decide +kernel) change .dropIfBusy))
  have h₃ := (h₂.steps (steps_settle _)).step (.pass (t := 5) (by decide +kernel))
  have h₄ := h₃.step (.request (admits_notify (n := 0) (by decide +kernel) change .dropIfBusy))
  have h₅ := (h₄.steps (steps_settle _)).step (.strike (t := 10) (by decide +kernel))
  exact h₅.steps (steps_next _)

theorem overlap_step : Step overlap overlap.next := step_next (by decide +kernel)

theorem overlapDue_step : Step overlapDue overlapDue.next := step_next (by decide +kernel)

theorem overlap_steps : Steps overlap.next overlapDue :=
  (steps_settle _).trans (.single (.strike (by decide +kernel)))

/-- The second run had its action put off when the first attempt ended, and attempts it. -/
theorem overlap_delayed :
    (∃ due, due ≤ overlapDue.now ∧ (overlap.runAt 1).stage = .delayed due ∧
        (overlapDue.runAt 1).stage = .delayed due) ∧
      overlapDue.Attempts (overlapDue.turn (.run 1) true) 1 := by
  obtain ⟨hrest, hact⟩ :=
    rest_kept_unless_delayed reachable_overlap overlap_step (r := 0) (by decide +kernel)
  have h := hrest overlapDue overlapDue.next 1 overlap_steps overlapDue_step (by decide +kernel)
    (by decide +kernel)
  obtain ⟨-, -, due, hdue, hd, hd'⟩ := h.resolve_left (by decide +kernel)
  refine ⟨⟨due, hdue, hd, hd'⟩, ?_⟩
  exact hact overlapDue 1 due true overlap_steps hd' hdue (by decide +kernel) (by decide +kernel)

/-- **The second run attempts its action 5 ms after the first attempt has ended, though the rule
rests for 100 ms.** -/
theorem overlap_attempts_while_resting :
    overlap.Reachable ∧ Step overlap overlap.next ∧ overlap.Concludes overlap.next 0 ∧
      Steps overlap.next overlapDue ∧ Step overlapDue overlapDue.next ∧
      overlapDue.Attempts overlapDue.next 1 ∧
      (overlapDue.runAt 1).rule = (overlap.runAt 0).rule ∧
      ¬ overlap.now + (overlap.ruleOf 0).definition.refractoryPeriod ≤ overlapDue.now :=
  ⟨reachable_overlap, overlap_step, by decide +kernel, overlap_steps, overlapDue_step,
    by decide +kernel, by decide +kernel, by decide +kernel⟩

end Engine

end ReactiveRules
