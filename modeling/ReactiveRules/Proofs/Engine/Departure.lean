import ReactiveRules.Proofs.Engine.InForce
import ReactiveRules.Proofs.Engine.Verdict

/-!
# `Proofs/Engine/Departure.lean` — who waits when the instance is retired

Retirement calls all who wait for the slot, and it can make the run that holds the slot give it back. So a run
that waits can find both in one turn: that it has been called away, and that the slot is free. **It leaves
and nothing has happened in it, unless it finds the slot free and attends to that first; then it starts
like a run of an instance in force** (`Engine.retired_waiter_leaves`).
-/

set_option autoImplicit false

namespace ReactiveRules

theorem Stage.eq_waiting_of_rank {s : Stage} (h : s.rank = 2) : s = .waiting := by
  cases s with
  | waiting => rfl
  | _ => cases h

/-! ## Starting -/

namespace Scene

variable {now : Nat} {S S' : Scene} {ls : List Listener}

/-- A run starts unless the rule rests. -/
theorem Starts.hasBegun (h : Starts now ls S S') (hr : S.rule.inRefractory now = false) :
    S'.run.hasBegun = true := by
  have hbegun : (S.begin now ls).Follows now S' := by
    cases h with
    | rests hr' => exact absurd (hr'.symm.trans hr) Bool.noConfusion
    | broke hr hv => exact follows_breakOff _ _
    | vetoed hr hv => exact follows_finish _ _
    | judges hr hv hj => exact hj.follows
  have hmem : Milestone.began ∈ (S.begin now ls).run.log :=
    List.mem_append_left _ (List.mem_append_right _ (List.mem_singleton.mpr rfl))
  exact List.any_eq_true.mpr ⟨_, hbegun.run.log.mem hmem, rfl⟩

theorem Starts.refractory (h : Starts now ls S S') (hr : S.rule.inRefractory now = true) :
    S' = S.finish (.suppressed .refractory) := by
  cases h with
  | rests hr' => rfl
  | broke hr' hv => exact absurd (hr.symm.trans hr') Bool.noConfusion
  | vetoed hr' hv => exact absurd (hr.symm.trans hr') Bool.noConfusion
  | judges hr' hv hj => exact absurd (hr.symm.trans hr') Bool.noConfusion

end Scene

namespace Engine

variable {E E' E₁ : Engine} {r : Nat}

/-! ## One turn -/

/-- The run ends because its instance is retired, and nothing has happened in it: no listener was told, nothing
was judged and nothing recorded. -/
structure SentAway (E E' : Engine) (r : Nat) : Prop where
  stage : (E'.runAt r).stage = .ended (.outcome (.suppressed .retired))
  log : (E'.runAt r).log = []
  reports : E'.core.reports = E.core.reports
  history : E'.history = E.history
  bus : E'.bus = E.bus

theorem Reachable.log_of_waiting (hE : E.Reachable) (hw : (E.runAt r).stage = .waiting) :
    (E.runAt r).log = [] := by
  have hr : r < E.core.runs.length := lt_of_listens (by rw [hw]; rfl)
  have ha := hE.accounts r hr
  rw [core_runAt] at ha
  refine ha.log_nil ?_ ?_
  · rw [Run.isOver, hw]
  · rw [hw]
    rfl

/-- What a run does in its turn that waits, called away: it leaves unless it gains the slot and attends to
that. -/
theorem wakeWaiting_called (hw : (E.runAt r).stage = .waiting) (hret : (E.ruleOf r).retired = true)
    {second : Bool} (hg : ¬ (E.Gains r ∧ second = false)) :
    E.wakeWaiting r second
      = ((E.modifyInstance (E.runAt r).rule fun i => { i with slot := i.slot.forget r }).notice
          (.retiredWaiting (E.ruleOf r).id)).finish r (.suppressed .retired) := by
  have hnone : (if !(E.ruleOf r).slot.waiting.contains r && !((E.ruleOf r).retired && second)
      then (E.ruleOf r).slot.claim? else none) = none := by
    split
    · next hfree =>
      obtain ⟨hout, hsecond⟩ : r ∉ (E.ruleOf r).slot.waiting ∧ second = false := by
        simpa [hret] using hfree
      by_contra hsome
      exact hg ⟨⟨hw, hout, Option.isSome_iff_ne_none.mpr hsome⟩, hsecond⟩
    · rfl
  unfold wakeWaiting
  simp only [hnone]
  rw [if_pos hret]

/-- A run that gains the slot and attends to that starts, whether its instance is retired or not. -/
theorem wakeWaiting_gains (hg : E.Gains r) :
    ∃ slot, (E.ruleOf r).slot.claim? = some slot ∧
      E.wakeWaiting r false = (E.hold r slot).start r := by
  obtain ⟨-, hout, hopen⟩ := hg
  obtain ⟨slot, hslot⟩ := Option.isSome_iff_exists.mp hopen
  refine ⟨slot, hslot, ?_⟩
  have hsome : (if !(E.ruleOf r).slot.waiting.contains r && !((E.ruleOf r).retired && false)
      then (E.ruleOf r).slot.claim? else none) = some slot := by
    simpa [hout] using hslot
  unfold wakeWaiting
  simp only [hsome]

theorem turn_waiting (hw : (E.runAt r).stage = .waiting) (hready : Job.run r ∈ E.ready)
    (second : Bool) :
    E.turn (.run r) second = { E with ready := E.ready.erase (.run r) }.wakeWaiting r second := by
  have hr : r < E.runs.length := lt_of_listens (by rw [hw]; rfl)
  have hrun : E.runs[r]? = some (E.runAt r) := by
    simp [runAt, hr]
  rw [turn_of_mem hready, perform, performRun]
  simp only [hrun, hw]

/-- Called away, a run leaves. -/
theorem Reachable.sentAway (hE : E.Reachable) (hw : (E.runAt r).stage = .waiting)
    (hret : (E.ruleOf r).retired = true) (hready : Job.run r ∈ E.ready) {second : Bool}
    (hg : ¬ (E.Gains r ∧ second = false)) : E.SentAway (E.turn (.run r) second) r := by
  have hr : r < E.core.runs.length := lt_of_listens (by rw [hw]; rfl)
  let E₀ : Engine := { E with ready := E.ready.erase (.run r) }
  have h : E₀.At E.core (E.core.scene r) := .scene hr (hE.valid.run r hr)
  have hturn : E.turn (.run r) second = _ :=
    (turn_waiting hw hready second).trans (wakeWaiting_called (E := E₀) hw hret hg)
  have hleft : (E.turn (.run r) second).At E.core
      (((E.core.scene r).mapSlot (·.forget r)).finish (.suppressed .retired)) := by
    rw [hturn]
    exact ((h.modifySlot (·.forget r)).notice _).finish _
  have hmute : E₀.Mute (E.turn (.run r) second) := by
    rw [hturn]
    exact ((E₀.mute_modifyInstance _ _).trans (still_notice _ _).toMute).trans
      (still_finish _ _ _).toMute
  exact {
    stage := congrArg Run.stage hleft.runAt
    log := (congrArg Run.log hleft.runAt).trans (hE.log_of_waiting hw)
    reports := (congrArg Core.reports hleft.core).trans rfl
    history := hleft.history
    bus := hmute.bus }

/-- What becomes of a run that gains the slot and attends to that. -/
theorem Reachable.starts_of_gains (hE : E.Reachable) (hg : E.Gains r) (hready : Job.run r ∈ E.ready) :
    ∃ slot S', Scene.Starts E.now E.listeners ((E.core.scene r).hold slot) S' ∧
      (E.turn (.run r) false).runAt r = S'.run := by
  have hr : r < E.core.runs.length := lt_of_listens (by rw [hg.1]; rfl)
  have h : ({ E with ready := E.ready.erase (.run r) } : Engine).At E.core (E.core.scene r) :=
    .scene hr (hE.valid.run r hr)
  obtain ⟨slot, hslot, hturn⟩ :=
    wakeWaiting_gains (E := { E with ready := E.ready.erase (.run r) }) hg
  obtain ⟨S', hs, hE'⟩ := (h.hold slot).start
  have hnum : S'.number = r := hs.follows.number
  refine ⟨slot, S', hs, ?_⟩
  rw [turn_waiting hg.1 hready, hturn]
  have hx := hE'.runAt
  rw [hnum] at hx
  exact hx

/-! ## From then on -/

/-- What has become, at `E`, of a run that waited for the slot when its instance was retired, at `E₁`. -/
inductive Departs (E₁ E : Engine) (r : Nat) : Prop
  | waits (hs : (E.runAt r).stage = .waiting) (hready : Job.run r ∈ E.ready)
    (hl : (E.runAt r).log = [])
  | left (hs : (E.runAt r).stage = .ended (.outcome (.suppressed .retired)))
    (hl : (E.runAt r).log = [])
  /-- Its client went away before. -/
  | abandoned (hs : (E.runAt r).stage = .ended .abandoned) (hl : (E.runAt r).log = [])
  | gained {E₂ : Engine} (h₁ : Steps E₁ E₂) (h₂ : Steps E₂ E) (hg : E₂.Gains r)

theorem Reachable.waits (hE : E.Reachable) (hw : (E.runAt r).stage = .waiting)
    (hret : (E.ruleOf r).retired = true) : E₁.Departs E r :=
  .waits hw (hE.awake.called r ⟨hret, by rw [hw]; rfl⟩) (hE.log_of_waiting hw)

/-- What one step makes of a run that waits for the slot of a retired instance. -/
theorem Departs.of_waiting (hE : E.Reachable) (h₁ : Steps E₁ E) (hs : Step E E')
    (hw : (E.runAt r).stage = .waiting) (hret : (E.ruleOf r).retired = true)
    (hret' : (E'.ruleOf r).retired = true) : E₁.Departs E' r := by
  have hE' := hE.step hs
  have hl := hE.log_of_waiting hw
  have hr : r < E.core.runs.length := lt_of_listens (by rw [hw]; rfl)
  cases (hs.core hE.valid).run hr with
  | same hx =>
    have hx : E'.runAt r = E.runAt r := hx
    exact hE'.waits (by rw [hx]; exact hw) hret'
  | cancelled hx =>
    have hx : E'.runAt r = E.runAt r := by
      refine hx.trans ?_
      rw [core_runAt, Run.cancelDeferral, hw]
    exact hE'.waits (by rw [hx]; exact hw) hret'
  | @turned S ht hc =>
    have hnum : S.number = r := ht.follows.number
    have hx : E'.runAt r = S.run := by
      rw [← core_runAt, hc, Core.runAt_put_self _ hnum hr]
    have hstage : (E.core.scene r).run.stage = .waiting := hw
    cases ht with
    | gains _ hout hc _ => exact .gained h₁ (.single hs) ⟨hw, hout, Option.isSome_of_mem hc⟩
    | leaves _ _ => exact .left (congrArg Run.stage hx) ((congrArg Run.log hx).trans hl)
    | queues _ _ _ hr' => exact absurd (hr'.symm.trans hret) Bool.noConfusion
    | _ => rw [hstage] at *; contradiction
  | deferred hd hx =>
    have harr : (E.runAt r).stage = .arriving := hd.stage
    rw [hw] at harr
    cases harr
  | abandoned ha hsus hx =>
    have hx : E'.runAt r = (E.core.scene r).abandon.run := hx
    exact .abandoned (congrArg Run.stage hx) ((congrArg Run.log hx).trans hl)

/-- **What becomes of a run that waited for the slot when its instance was retired.** -/
theorem Reachable.departs (hE : E₁.Reachable) (hw : (E₁.runAt r).stage = .waiting)
    (hret : (E₁.ruleOf r).retired = true) (h : Steps E₁ E) : E₁.Departs E r := by
  have hr : r < E₁.core.runs.length := lt_of_listens (by rw [hw]; rfl)
  -- its instance stays the same, and stays retired
  have hretired : ∀ {E₂ : Engine}, Steps E₁ E₂ → (E₂.ruleOf r).retired = true := fun h₂ =>
    Steps.ruleOf_retired h₂ hE (hE.valid.run r hr) hret ((Steps.follows h₂ hE).run r hr).rule
  induction h with
  | refl => exact hE.waits hw hret
  | @tail E E' h₁ hs ih =>
    -- a run that is over stays as it is
    have hover : (E.runAt r).isOver = true → E'.runAt r = E.runAt r :=
      (hs.core (hE.steps h₁).valid).run_over (Nat.lt_of_lt_of_le hr (Steps.follows h₁ hE).runs)
    cases ih with
    | waits hw' _ _ => exact .of_waiting (hE.steps h₁) h₁ hs hw' (hretired h₁) (hretired (h₁.tail hs))
    | left hend hl =>
      have hx := hover (by rw [Run.isOver, hend])
      exact .left (by rw [hx]; exact hend) (by rw [hx]; exact hl)
    | abandoned hend hl =>
      have hx := hover (by rw [Run.isOver, hend])
      exact .abandoned (by rw [hx]; exact hend) (by rw [hx]; exact hl)
    | gained h₂ h₃ hg => exact .gained h₂ (h₃.tail hs) hg

/-- **A run that waits for the slot when its instance is retired is ready for a turn and leaves in it, and
nothing has happened in it then; unless it finds the slot free for it in that turn and attends to that
first. Then it starts, except that the rule may rest.** As long as it has not had the slot free in a turn, it
has had nothing happen to it but that its client went away. -/
theorem retired_waiter_leaves {E₁ : Engine} {r : Nat} (hE : E₁.Reachable)
    (hw : (E₁.runAt r).stage = .waiting) (hret : (E₁.ruleOf r).retired = true) :
    Job.run r ∈ E₁.ready ∧
    (∀ second, ¬ (E₁.Gains r ∧ second = false) → E₁.SentAway (E₁.turn (.run r) second) r) ∧
    (E₁.Gains r →
      let x := (E₁.turn (.run r) false).runAt r
      if (E₁.ruleOf r).inRefractory E₁.now
        then x.stage = .ended (.outcome (.suppressed .refractory)) ∧ x.log = []
        else x.hasBegun = true) ∧
    ∀ E, Steps E₁ E → E₁.Departs E r := by
  have hready := hE.awake.called r ⟨hret, by rw [hw]; rfl⟩
  refine ⟨hready, fun second hg => hE.sentAway hw hret hready hg, fun hg => ?_,
    fun E h => hE.departs hw hret h⟩
  obtain ⟨slot, S', hs, hx⟩ := hE.starts_of_gains hg hready
  dsimp only
  rw [hx]
  split
  · next hrest =>
    rw [hs.refractory hrest]
    exact ⟨rfl, hE.log_of_waiting hw⟩
  · next hrest => exact hs.hasBegun (Bool.of_not_eq_true hrest)

/-- A rule whose condition holds for one attribute only, and whose action is put off. -/
def sleepy : Definition :=
  { prompt with condition := "attribute == \"a\"", executionDelay := 10 }

/-- Its action is put off in the first run, a second one waits, and it is taken out of force. The first has
given back the slot. -/
def departing : Engine :=
  let told := blank.serve (.listen { number := 1, name := "l", role := .reporter false })
  let E := ((told.serve (.define sleepy)).serve (.notify 0 change .wait)).settle
  ((E.serve (.notify 0 { change with name := "b" } .wait)).settle.serve (.deregister "r1")).next

theorem reachable_departing : departing.Reachable := by
  have h₁ := fresh_blank.reachable.step (.request
    (q := .listen { number := 1, name := "l", role := .reporter false }) trivial)
  have h₂ := h₁.step (.request (q := .define sleepy) trivial)
  have h₃ := h₂.step (.request (admits_notify (n := 0) (by decide +kernel) change .wait))
  have h₄ := (h₃.steps (steps_settle _)).step (.request
    (admits_notify (n := 0) (by decide +kernel) { change with name := "b" } .wait))
  have h₅ := (h₄.steps (steps_settle _)).step (.request (q := .deregister "r1") trivial)
  exact h₅.steps (steps_next _)

theorem departing_waits : (departing.runAt 1).stage = .waiting :=
  Stage.eq_waiting_of_rank (by decide +kernel)

/-- The second run leaves, with nothing happened in it, if it attends to its being called away first. -/
theorem departing_sentAway : departing.Gains 1 ∧
    departing.SentAway (departing.turn (.run 1) true) 1 := by
  obtain ⟨-, hturn, -, -⟩ :=
    retired_waiter_leaves reachable_departing departing_waits (by decide +kernel)
  exact ⟨⟨departing_waits, by decide +kernel, by decide +kernel⟩, hturn true fun h => by cases h.2⟩

/-- **It starts if it attends to the slot first: the listener hears of it, its condition is judged, and it
leaves a record.** -/
theorem departing_begins :
    departing.Reachable ∧ (departing.runAt 1).stage = .waiting ∧
      (departing.ruleOf 1).retired = true ∧ Steps departing departing.settle ∧
      (departing.settle.runAt 1).hasBegun = true ∧ (departing.settle.runAt 1).judgements = 1 ∧
      departing.settle.core.reports.length = departing.core.reports.length + 3 ∧
      departing.settle.history.records.length = departing.history.records.length + 1 :=
  ⟨reachable_departing, departing_waits, by decide +kernel, steps_settle _, by decide +kernel,
    by decide +kernel, by decide +kernel, by decide +kernel⟩

end Engine

end ReactiveRules
