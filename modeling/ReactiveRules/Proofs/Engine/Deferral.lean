import ReactiveRules.Proofs.Engine.Agenda
import ReactiveRules.Proofs.Engine.Runs

/-!
# `Proofs/Engine/Deferral.lean` — the agenda of an engine

Which runs have their evaluation put off, and what their instances believe about it, can be read off a
core (`Core.agenda`). **Each step is one event of the agenda** (`Core.Step.enacts`): which one is told
by who is admitted, who loses its id, and who comes past its deferral. So what instances believe is
true at every engine that can be reached.
-/

set_option autoImplicit false

namespace ReactiveRules

/-- Has the run ended because its deferral was cancelled? -/
def Stage.isCancelled : Stage → Bool
  | .ended .cancelled => true
  | _ => false

theorem Run.deferral?_of_rank {x : Run} (h : 2 ≤ x.stage.rank) : x.deferral? = none := by
  unfold Run.deferral?
  split
  · next hs =>
    rw [hs] at h
    exact absurd h (Nat.not_succ_le_self 1)
  · rfl

/-- A deferral is one of the run's own instance. -/
theorem Run.stage_of_deferral {x : Run} {y : Deferral} (h : x.deferral? = some y) :
    x.rule = y.rule ∧ x.stage = .deferred y.generation y.due y.cancelled := by
  unfold Run.deferral? at h
  split at h
  · next hs =>
    cases h
    exact ⟨rfl, hs⟩
  · cases h

theorem Run.deferral_of_stage {x : Run} {g due : Nat} {c : Bool} (h : x.stage = .deferred g due c) :
    x.deferral? = some ⟨x.rule, g, due, c⟩ := by
  simp [Run.deferral?, h]

theorem Run.deferral?_cancelDeferral (x : Run) :
    x.cancelDeferral.deferral? = x.deferral?.map Deferral.cancel := by
  unfold Run.cancelDeferral
  split
  · next hs => simp [Run.deferral?, hs, Deferral.cancel]
  · next hne =>
    have hnone : x.deferral? = none := by
      unfold Run.deferral?
      split
      · next hs => exact absurd hs (hne _ _ _)
      · rfl
    rw [hnone]
    rfl

@[simp] theorem Run.cancelDeferral_admitted (x : Run) : x.cancelDeferral.admitted = x.admitted := by
  unfold Run.cancelDeferral
  split <;> rfl

namespace Scene

variable {now : Nat} {S S' : Scene} {ls : List Listener}

/-! ## Turns -/

/-- Nothing that concerns deferrals has changed, and the run has not ended at one. -/
structure Calm (S S' : Scene) : Prop where
  pending : S'.rule.pending = S.rule.pending
  generation : S'.rule.generation = S.rule.generation
  admitted : S'.run.admitted = S.run.admitted
  cancelled : S'.run.stage.isCancelled = true → S.run.stage.isCancelled = true

theorem Calm.trans {S'' : Scene} (h : S.Calm S') (h' : S'.Calm S'') : S.Calm S'' :=
  ⟨h'.pending.trans h.pending, h'.generation.trans h.generation, h'.admitted.trans h.admitted,
    fun hc => h.cancelled (h'.cancelled hc)⟩

theorem calm_finish (S : Scene) (o : Outcome) : S.Calm (S.finish o) :=
  ⟨rfl, rfl, rfl, Bool.noConfusion⟩

theorem calm_begin (S : Scene) (now : Nat) (ls : List Listener) : S.Calm (S.begin now ls) :=
  ⟨rfl, rfl, rfl, id⟩

theorem calm_hold (S : Scene) (slot : Slot Nat) : S.Calm (S.hold slot) := ⟨rfl, rfl, rfl, id⟩

theorem calm_breakOff (S : Scene) (now : Nat) (m : String) : S.Calm (S.breakOff now m) :=
  ⟨rfl, rfl, rfl, Bool.noConfusion⟩

theorem calm_misjudge (S : Scene) (now : Nat) (e : ScriptError) : S.Calm (S.misjudge now e) :=
  ⟨rfl, rfl, rfl, Bool.noConfusion⟩

theorem calm_judge (S : Scene) : S.Calm S.judge := ⟨rfl, rfl, rfl, id⟩

theorem calm_conclude (S : Scene) (now : Nat) (result : Except RuleError Json) :
    S.Calm (S.conclude now result) := by
  cases result with
  | ok v => exact ⟨rfl, rfl, rfl, Bool.noConfusion⟩
  | error e => exact ⟨rfl, rfl, rfl, Bool.noConfusion⟩

theorem Acts.calm (h : Acts now S S') : S.Calm S' := by
  cases h with
  | unread e =>
    have hm : S.Calm (S.mark .attempted) := ⟨rfl, rfl, rfl, id⟩
    exact hm.trans (calm_conclude _ _ _)
  | acting e => exact ⟨rfl, rfl, rfl, Bool.noConfusion⟩

theorem Decides.calm (h : Decides now S S') : S.Calm S' := by
  cases h with
  | misjudged e => exact S.calm_misjudge now e
  | declines => exact ⟨rfl, rfl, rfl, Bool.noConfusion⟩
  | proceeds hp =>
    cases hp with
    | rests hr => exact ⟨rfl, rfl, rfl, Bool.noConfusion⟩
    | delays hr hd => exact ⟨rfl, rfl, rfl, Bool.noConfusion⟩
    | acts hr hd ha =>
      have ht : S.Calm ((S.tell (.afterEvaluate true)).tell .beforeExecute) := ⟨rfl, rfl, rfl, id⟩
      exact ht.trans ha.calm

theorem Starts.calm (h : Starts now ls S S') : S.Calm S' := by
  cases h with
  | rests hr => exact S.calm_finish _
  | broke hr hv => exact (S.calm_begin now ls).trans (calm_breakOff _ _ _)
  | vetoed hr hv => exact (S.calm_begin now ls).trans (calm_finish _ _)
  | judges hr hv hj =>
    refine (S.calm_begin now ls).trans ?_
    cases hj with
    | unread e => exact (calm_judge _).trans (calm_misjudge _ _ _)
    | judging e => exact (calm_judge _).trans ⟨rfl, rfl, rfl, Bool.noConfusion⟩

theorem Claims.calm (h : Claims now ls S S') : S.Calm S' := by
  cases h with
  | retired h => exact S.calm_finish _
  | starts h hs ha => exact (S.calm_hold _).trans ha.calm
  | busy h hs ha => exact S.calm_finish _
  | waits h hs ha => exact ⟨rfl, rfl, rfl, Bool.noConfusion⟩

/-- What a turn is to the agenda. -/
inductive Heeds (now : Nat) (S S' : Scene) : Prop
  /-- The run neither stands at a deferral nor comes to one. -/
  | rest (h : S.run.deferral? = none) (h' : S'.run.deferral? = none)
    (hp : S'.rule.pending = S.rule.pending) (hg : S'.rule.generation = S.rule.generation)
    (ha : S'.run.admitted = S.run.admitted ∨ S.rule.definition.evaluationDelay = 0)
  | fires {x : Deferral} (h : S.run.deferral? = some x) (hd : x.due ≤ now)
    (h' : S'.run.deferral? = none) (hc : S'.run.stage.isCancelled = false)
    (hp : S'.rule.pending = S.rule.pending.filter (·.1 != x.generation))
    (hg : S'.rule.generation = S.rule.generation) (ha : S'.run.admitted = S.run.admitted)
  | lapses {x : Deferral} (h : S.run.deferral? = some x) (hx : x.cancelled = true)
    (hS : S' = S.setStage (.ended .cancelled))

/-- **A turn is calm, or that of a run at its deferral.** -/
theorem Turn.heeds (h : Turn now ls S S') : S.Heeds now S' := by
  have hafter : S'.run.deferral? = none := Run.deferral?_of_rank h.rank
  -- most turns are calm, and begin elsewhere
  have hcalm : ∀ {s : Stage}, S.run.stage = s → s.rank ≠ 1 → S.Calm S' → S.Heeds now S' := by
    intro s hs hr hc
    refine .rest ?_ hafter hc.pending hc.generation (.inl hc.admitted)
    unfold Run.deferral?
    split
    · next hd =>
      rw [← hs, hd] at hr
      exact absurd rfl hr
    · rfl
  cases h with
  | paused hs hp => exact hcalm hs (by decide) (S.calm_finish _)
  | rests hs hp hr => exact hcalm hs (by decide) (S.calm_finish _)
  | arrives hs hp hr hd ha =>
    have hc := ha.calm
    exact .rest (by rw [Run.deferral?, hs]) hafter hc.pending hc.generation (.inr hd)
  | @fires g due c hs hd _ ha =>
    have hc := ha.calm
    refine .fires (Run.deferral_of_stage hs) hd hafter ?_
      (hc.pending.trans ?_) (hc.generation.trans ?_) hc.admitted
    · by_contra hcan
      have hS := hc.cancelled (by simpa using hcan)
      rw [mapRule, hs] at hS
      cases hS
    · simp only [mapRule, Instance.mapRule, Rule.finishPending_eq]
    · simp only [mapRule, Instance.mapRule, Rule.finishPending_eq]
  | cancelled hs => exact .lapses (Run.deferral_of_stage hs) rfl rfl
  | gains hs hw hc ha => exact hcalm hs (by decide) ((S.calm_hold _).trans ha.calm)
  | leaves hs hr =>
    have hm : S.Calm (S.mapSlot (·.forget S.number)) := ⟨rfl, rfl, rfl, id⟩
    exact hcalm hs (by decide) (hm.trans (calm_finish _ _))
  | queues hs hw hc hr => exact hcalm hs (by decide) ⟨rfl, rfl, rfl, id⟩
  | acts hs hd ha => exact hcalm hs (by simp [Stage.rank]) ha.calm
  | forgoes hs hr => exact hcalm hs (by simp [Stage.rank]) ⟨rfl, rfl, rfl, Bool.noConfusion⟩
  | broke hs m => exact hcalm hs (by simp [Stage.rank]) (S.calm_breakOff now m)
  | decides hs ha => exact hcalm hs (by simp [Stage.rank]) ha.calm
  | concludes hs result => exact hcalm hs (by simp [Stage.rank]) (S.calm_conclude now result)

end Scene

/-! ## What a core shows of its agenda -/

namespace Core

variable {C C' : Core} {e : Agenda.Event}

def agenda (C : Core) : Agenda where
  deferral r := (C.runAt r).deferral?
  pending n := (C.ruleAt n).pending
  generation n := (C.ruleAt n).generation

theorem agenda_eq {C C' : Core} (hd : ∀ r, (C'.runAt r).deferral? = (C.runAt r).deferral?)
    (hp : ∀ n, (C'.ruleAt n).pending = (C.ruleAt n).pending)
    (hg : ∀ n, (C'.ruleAt n).generation = (C.ruleAt n).generation) : C'.agenda = C.agenda := by
  unfold agenda
  rw [funext hd, funext hp, funext hg]

theorem agenda_put (C : Core) {S : Scene} (hr : S.number < C.runs.length)
    (hn : S.run.rule < C.instances.length) : (C.put S).agenda =
      { deferral := fun r => if S.number = r then S.run.deferral? else C.agenda.deferral r
        pending := fun n => if S.run.rule = n then S.rule.pending else C.agenda.pending n
        generation := fun n => if S.run.rule = n then S.rule.generation else C.agenda.generation n } := by
  simp only [agenda, runAt_put C hr, ruleAt_put C hn, Agenda.mk.injEq]
  refine ⟨?_, ?_, ?_⟩ <;> · funext m; split <;> rfl

/-- What is put back in its place is the same. -/
theorem ite_same {α : Type} (f : Nat → α) (n : Nat) : (fun m => if n = m then f n else f m) = f := by
  funext m
  split
  · next h => rw [h]
  · rfl

/-- A scene whose instance shows the same of the agenda. -/
theorem agenda_put_run (C : Core) {S : Scene} (hr : S.number < C.runs.length)
    (hn : S.run.rule < C.instances.length) (hp : S.rule.pending = (C.ruleAt S.run.rule).pending)
    (hg : S.rule.generation = (C.ruleAt S.run.rule).generation) : (C.put S).agenda =
      { C.agenda with
        deferral := fun r => if S.number = r then S.run.deferral? else C.agenda.deferral r } := by
  rw [agenda_put C hr hn, hp, hg, Agenda.mk.injEq]
  exact ⟨rfl, ite_same C.agenda.pending _, ite_same C.agenda.generation _⟩

/-- A scene that shows the same of the agenda. -/
theorem agenda_put_same (C : Core) {S : Scene} (hr : S.number < C.runs.length)
    (hn : S.run.rule < C.instances.length) (hd : S.run.deferral? = (C.runAt S.number).deferral?)
    (hp : S.rule.pending = (C.ruleAt S.run.rule).pending)
    (hg : S.rule.generation = (C.ruleAt S.run.rule).generation) : (C.put S).agenda = C.agenda := by
  rw [agenda_put_run C hr hn hp hg, hd]
  exact congrArg (fun d => { C.agenda with deferral := d }) (ite_same C.agenda.deferral _)

/-- The run comes past its deferral, and its instance has put it off no more. -/
theorem agenda_put_fires (C : Core) {S : Scene} {x : Deferral} (hr : S.number < C.runs.length)
    (hn : S.run.rule < C.instances.length) (hx : (C.runAt S.number).deferral? = some x)
    (hrule : x.rule = S.run.rule) (hd : S.run.deferral? = none)
    (hp : S.rule.pending = (C.ruleAt S.run.rule).pending.filter (·.1 != x.generation))
    (hg : S.rule.generation = (C.ruleAt S.run.rule).generation) :
    (C.put S).agenda = C.agenda.after (.fires S.number) := by
  have hdef : C.agenda.deferral S.number = some x := hx
  rw [agenda_put C hr hn, hd, hp, hg]
  simp only [Agenda.after, hdef, hrule, Agenda.mk.injEq, true_and]
  refine ⟨funext fun n => ?_, ite_same C.agenda.generation _⟩
  split
  · next h =>
    rw [← h]
    rfl
  · rfl

theorem agenda_modifyInstance (C : Core) (n : Nat) {f : Instance → Instance}
    (hp : ∀ i : Instance, (f i).pending = i.pending)
    (hg : ∀ i : Instance, (f i).generation = i.generation) :
    (C.modifyInstance n f).agenda = C.agenda := by
  have h : ∀ m, _ := getD_modify_or C.instances n f default
  refine agenda_eq (fun _ => rfl) (fun m => ?_) (fun m => ?_)
  · unfold ruleAt modifyInstance
    rcases h m with hm | ⟨-, hm⟩ <;> rw [hm]
    exact hp _
  · unfold ruleAt modifyInstance
    rcases h m with hm | ⟨-, hm⟩ <;> rw [hm]
    exact hg _

theorem agenda_addInstance (C : Core) (d : Definition) (rs : List (String × Nat)) :
    Core.agenda { C with instances := C.instances ++ [Instance.ofDefinition d], registered := rs }
      = C.agenda := by
  have h : ∀ m, _ := getD_concat_or C.instances (Instance.ofDefinition d) default
  refine agenda_eq (fun _ => rfl) (fun m => ?_) (fun m => ?_)
  · unfold ruleAt
    rcases h m with hm | ⟨hm, hm'⟩
    · rw [hm]
    · rw [hm, hm']
      rfl
  · unfold ruleAt
    rcases h m with hm | ⟨hm, hm'⟩
    · rw [hm]
    · rw [hm, hm']
      rfl

theorem agenda_alike {is : List Instance} {t : Nat} (ha : List.Forall₂ Instance.Alike C.instances is) :
    Core.agenda { C with now := t, instances := is } = C.agenda := by
  refine agenda_eq (fun _ => rfl) (fun n => ?_) (fun n => ?_)
  · exact congrArg (·.pending) (alike_getD ha n).rest
  · exact congrArg (·.generation) (alike_getD ha n).rest

/-- Calling off what an instance has put off. -/
theorem agenda_cancelPending (C : Core) (n : Nat) :
    (C.cancelPending (C.ruleAt n).pending).agenda = { C.agenda with deferral := C.agenda.callOff n } := by
  have hp : C.agenda.pending n = (C.ruleAt n).pending := rfl
  unfold agenda Agenda.callOff
  simp only [ruleAt_cancelPending, Agenda.mk.injEq, and_true]
  funext r
  cases hx : (C.ruleAt n).pending with
  | none => rfl
  | some p =>
    simp only [cancelPending, runAt_cancelDeferral]
    split
    · exact Run.deferral?_cancelDeferral _
    · rfl

theorem pendingOf_eq (C : Core) (n : Nat) : C.pendingOf n = (C.ruleAt n).pending := by
  unfold pendingOf ruleAt
  rw [List.getD_eq_getElem?_getD]
  cases C.instances[n]? <;> rfl

/-- Retiring an instance drops what it has put off. -/
theorem agenda_retire (C : Core) {n : Nat} (hn : n < C.instances.length) :
    (C.retire n (C.pendingOf n)).agenda = C.agenda.after (.drops n) := by
  -- the instance forgets first, but what it forgets is what is called off
  have hrule : ∀ m, (C.retire n (C.pendingOf n)).ruleAt m
      = if n = m then (C.ruleAt m).mapRule Rule.retire else C.ruleAt m := by
    intro m
    rw [retire, ruleAt_cancelPending]
    exact getD_modify _ _ hn m
  have hrun : ∀ r, (C.retire n (C.pendingOf n)).runAt r
      = (C.cancelPending (C.ruleAt n).pending).runAt r := by
    intro r
    rw [pendingOf_eq]
    cases (C.ruleAt n).pending <;> rfl
  have hcall := congrArg Agenda.deferral (C.agenda_cancelPending n)
  simp only [agenda, Agenda.after, hrule, hrun, Agenda.mk.injEq]
  refine ⟨hcall, ?_, ?_⟩ <;>
  · funext m
    split <;> rfl

/-- The evaluation of a run is put off in place of what its instance has put off. -/
theorem agenda_defer (hv : C.Valid) {r : Nat} (hr : r < C.runs.length) :
    ((C.cancelPending (C.scene r).rule.pending).put (((C.scene r).accept C.now).defer C.now)).agenda
      = C.agenda.after (.putsOff r (C.runAt r).rule
          (C.now + (C.ruleAt (C.runAt r).rule).definition.evaluationDelay)) := by
  have hcall : (C.cancelPending (C.scene r).rule.pending).agenda = _ :=
    C.agenda_cancelPending (C.runAt r).rule
  have hrule : (((C.scene r).accept C.now).defer C.now).run.rule = (C.runAt r).rule := rfl
  have hnum : (((C.scene r).accept C.now).defer C.now).number = r := rfl
  rw [agenda_put _ (by simpa [hnum] using hr) (by simpa [hrule] using hv.run r hr), hcall]
  rfl

/-! ## Steps are events -/

/-- The notification is admitted between the two states. -/
def Accepts (C C' : Core) (r : Nat) : Prop :=
  (C.runAt r).admitted = false ∧ (C'.runAt r).admitted = true

/-- The instance loses its id between the two states. -/
def Ousts (C C' : Core) (n : Nat) : Prop := ∃ id, C.number? id = some n ∧ C'.number? id ≠ some n

/-- For how long the evaluation of a run is put off. -/
def delayOf (C : Core) (r : Nat) : Nat := (C.ruleAt (C.runAt r).rule).definition.evaluationDelay

/-- What happens between the two states is this event of the agenda. -/
structure Enacts (C C' : Core) (e : Agenda.Event) : Prop where
  agenda : C'.agenda = C.agenda.after e
  allows : C.agenda.Allows C.now e
  accepts : ∀ r, C.Accepts C' r → C.delayOf r ≠ 0 →
    e = .putsOff r (C.runAt r).rule (C.now + C.delayOf r)
  putsOff : ∀ r n due, e = .putsOff r n due →
    r < C.runs.length ∧ C.Accepts C' r ∧ (C.runAt r).stage = .arriving ∧ n = (C.runAt r).rule ∧
      C.delayOf r ≠ 0
  ousts : ∀ n, C.Ousts C' n ↔ e = .drops n
  fires : ∀ r, e = .fires r → (C'.runAt r).stage.isCancelled = false
  lapses : ∀ r, e = .lapses r → (C'.runAt r).stage.isCancelled = true

theorem not_ousts (h : C'.registered = C.registered) (n : Nat) : ¬ C.Ousts C' n := by
  rintro ⟨id, hn, hn'⟩
  exact hn' ((number?_eq_of_registered h id).trans hn)

/-- Nothing happens to what is put off. -/
theorem Enacts.of_rest (h : C'.agenda = C.agenda)
    (ha : ∀ r, (C'.runAt r).admitted = (C.runAt r).admitted ∨ C.delayOf r = 0)
    (ho : ∀ n, ¬ C.Ousts C' n) : C.Enacts C' .rest where
  agenda := h
  allows := trivial
  accepts := by
    intro r hr hd
    rcases ha r with hsame | hzero
    · rw [Accepts, hsame] at hr
      exact absurd (hr.1.symm.trans hr.2) Bool.noConfusion
    · exact absurd hzero hd
  putsOff := fun _ _ _ h => Agenda.Event.noConfusion h
  ousts := fun n => ⟨fun h => absurd h (ho n), fun h => Agenda.Event.noConfusion h⟩
  fires := fun _ h => Agenda.Event.noConfusion h
  lapses := fun _ h => Agenda.Event.noConfusion h

/-- The evaluation that was put off takes place. -/
theorem Enacts.of_fires {r : Nat} (h : C'.agenda = C.agenda.after (.fires r))
    (hd : ∃ x, (C.runAt r).deferral? = some x ∧ x.due ≤ C.now) (ha : ∀ m, ¬ C.Accepts C' m)
    (ho : ∀ n, ¬ C.Ousts C' n) (hc : (C'.runAt r).stage.isCancelled = false) :
    C.Enacts C' (.fires r) where
  agenda := h
  allows := hd
  accepts := fun m hm => absurd hm (ha m)
  putsOff := fun _ _ _ h => Agenda.Event.noConfusion h
  ousts := fun n => ⟨fun h => absurd h (ho n), fun h => Agenda.Event.noConfusion h⟩
  fires := by
    rintro m ⟨⟩
    exact hc
  lapses := fun _ h => Agenda.Event.noConfusion h

/-- The run hears that what was put off has been called off. -/
theorem Enacts.of_lapses {r : Nat} (h : C'.agenda = C.agenda.after (.lapses r))
    (hd : ∃ x, (C.runAt r).deferral? = some x ∧ x.cancelled = true) (ha : ∀ m, ¬ C.Accepts C' m)
    (ho : ∀ n, ¬ C.Ousts C' n) (hc : (C'.runAt r).stage.isCancelled = true) :
    C.Enacts C' (.lapses r) where
  agenda := h
  allows := hd
  accepts := fun m hm => absurd hm (ha m)
  putsOff := fun _ _ _ h => Agenda.Event.noConfusion h
  ousts := fun n => ⟨fun h => absurd h (ho n), fun h => Agenda.Event.noConfusion h⟩
  fires := fun _ h => Agenda.Event.noConfusion h
  lapses := by
    rintro m ⟨⟩
    exact hc

/-- A turn changes whether its run is admitted, and of no other. -/
theorem admitted_put (C : Core) {S : Scene} {r : Nat} (hn : S.number = r) (hr : r < C.runs.length)
    {P : Nat → Prop} (h : S.run.admitted = (C.runAt r).admitted ∨ P r) (m : Nat) :
    ((C.put S).runAt m).admitted = (C.runAt m).admitted ∨ P m := by
  rw [runAt_put C (hn ▸ hr)]
  split
  · next hm =>
    rw [← hm, hn]
    exact h
  · exact .inl rfl

theorem not_accepts_put (C : Core) {S : Scene} {r : Nat} (hn : S.number = r) (hr : r < C.runs.length)
    (h : S.run.admitted = (C.runAt r).admitted) (m : Nat) : ¬ C.Accepts (C.put S) m := by
  intro hm
  rcases C.admitted_put hn hr (P := fun _ => False) (.inl h) m with hsame | hfalse
  · rw [Accepts, hsame] at hm
    exact absurd (hm.1.symm.trans hm.2) Bool.noConfusion
  · exact hfalse

theorem enacts_turn (hv : C.Valid) {r : Nat} (hr : r < C.runs.length) {S : Scene}
    (ht : Scene.Turn C.now C.listeners (C.scene r) S) : ∃ e, C.Enacts (C.put S) e := by
  have hnum : S.number = r := ht.follows.number
  have hrule : S.run.rule = (C.runAt r).rule := ht.follows.rule
  have hr' : S.number < C.runs.length := hnum ▸ hr
  have hn : S.run.rule < C.instances.length := hrule ▸ hv.run r hr
  have hinst : C.ruleAt S.run.rule = (C.scene r).rule := congrArg C.ruleAt hrule
  have hrun : (C.put S).runAt r = S.run := runAt_put_self C hnum hr
  have hold : (C.runAt S.number).deferral? = (C.runAt r).deferral? := by rw [hnum]
  have hout : ∀ n, ¬ C.Ousts (C.put S) n := not_ousts rfl
  cases ht.heeds with
  | rest h h' hp hg ha =>
    have hd : S.run.deferral? = (C.runAt S.number).deferral? := h'.trans (hold.trans h).symm
    have hsame : (C.put S).agenda = C.agenda :=
      C.agenda_put_same hr' hn hd (by rw [hp, hinst]) (by rw [hg, hinst])
    exact ⟨.rest, .of_rest hsame (C.admitted_put hnum hr ha) hout⟩
  | @fires x h hd h' hc hp hg ha =>
    have hx : x.rule = S.run.rule := (Run.stage_of_deferral h).1.symm.trans hrule.symm
    have hfires : (C.put S).agenda = C.agenda.after (.fires S.number) :=
      C.agenda_put_fires hr' hn (hold.trans h) hx h' (by rw [hp, hinst]) (by rw [hg, hinst])
    rw [hnum] at hfires
    exact ⟨.fires r, .of_fires hfires ⟨x, h, hd⟩ (C.not_accepts_put hnum hr ha) hout (by rwa [hrun])⟩
  | @lapses x h hx hS =>
    subst hS
    have hlapses : (C.put ((C.scene r).setStage (.ended .cancelled))).agenda
        = C.agenda.after (.lapses r) := C.agenda_put_run hr' hn rfl rfl
    exact ⟨.lapses r, .of_lapses hlapses ⟨x, h, hx⟩ (C.not_accepts_put hnum hr rfl) hout
      (by rw [hrun]; rfl)⟩

/-- A run that has not been looked at has not been admitted, and has not answered. -/
def Unheard (C : Core) : Prop := ∀ r, (C.runAt r).stage = .arriving →
  (C.runAt r).admitted = false ∧ (C.runAt r).answered = false

theorem Unheard.step (h : C.Unheard) (hs : C.Step C') : C'.Unheard := by
  intro r ha
  by_cases hr : r < C.runs.length
  · have hx := hs.run_of_arriving hr ha
    rw [hx] at ha ⊢
    exact h r ha
  · by_cases hl : r < C'.runs.length
    · obtain ⟨n, t, a, c, hx, -⟩ := hs.run_new (Nat.le_of_not_lt hr) hl
      rw [hx]
      exact ⟨rfl, rfl⟩
    · rw [runAt_of_le (Nat.le_of_not_lt hl)]
      exact ⟨rfl, rfl⟩

theorem admitted_cancelPending (C : Core) (p : Option (Nat × Nat)) (r : Nat) :
    ((C.cancelPending p).runAt r).admitted = (C.runAt r).admitted := by
  rcases C.runAt_cancelPending p r with hx | hx
  · rw [hx]
  · rw [hx, Run.cancelDeferral_admitted]

theorem enacts_defer (hv : C.Valid) (hu : C.Unheard) {r : Nat} (hr : r < C.runs.length)
    (hd : Scene.Defers C.now (C.scene r)) : C.Enacts
      ((C.cancelPending (C.scene r).rule.pending).put (((C.scene r).accept C.now).defer C.now))
      (.putsOff r (C.runAt r).rule (C.now + C.delayOf r)) := by
  have hstage : (C.runAt r).stage = .arriving := hd.stage
  have hrun : ∀ m, m ≠ r →
      (((C.cancelPending (C.scene r).rule.pending).put
        (((C.scene r).accept C.now).defer C.now)).runAt m).admitted = (C.runAt m).admitted := by
    intro m hm
    rw [runAt_put_ne _ (Ne.symm hm), admitted_cancelPending]
  have hself := runAt_put_self (C.cancelPending (C.scene r).rule.pending)
    (S := ((C.scene r).accept C.now).defer C.now) (r := r) rfl (by simpa using hr)
  refine ⟨agenda_defer hv hr, ⟨?_, ?_⟩, ?_, ?_, ?_, ?_, ?_⟩
  · show (C.runAt r).deferral? = none
    rw [Run.deferral?, hstage]
  · exact Nat.lt_add_of_pos_right (Nat.pos_of_ne_zero hd.delay)
  · intro m hm _
    by_cases hmr : m = r
    · rw [hmr]
    · rw [Accepts, hrun m hmr] at hm
      exact absurd (hm.1.symm.trans hm.2) Bool.noConfusion
  · rintro m n due ⟨⟩
    exact ⟨hr, ⟨(hu r hstage).1, by rw [hself]; rfl⟩, hstage, rfl, hd.delay⟩
  · have hreg : ((C.cancelPending (C.scene r).rule.pending).put
        (((C.scene r).accept C.now).defer C.now)).registered = C.registered := by simp
    exact fun n => ⟨fun h => absurd h (not_ousts hreg n), fun h => Agenda.Event.noConfusion h⟩
  · exact fun _ h => Agenda.Event.noConfusion h
  · exact fun _ h => Agenda.Event.noConfusion h

/-- An instance that is retired has what it has put off dropped. -/
theorem Enacts.of_retire {n : Nat} (h : C'.agenda = C.agenda.after (.drops n))
    (ha : ∀ r, (C'.runAt r).admitted = (C.runAt r).admitted)
    (ho : ∀ m, C.Ousts C' m ↔ m = n) : C.Enacts C' (.drops n) where
  agenda := h
  allows := trivial
  accepts := by
    intro r hr
    rw [Accepts, ha] at hr
    exact absurd (hr.1.symm.trans hr.2) Bool.noConfusion
  putsOff := fun _ _ _ h => Agenda.Event.noConfusion h
  ousts := fun m => by rw [ho m, Agenda.Event.drops.injEq, eq_comm]
  fires := fun _ h => Agenda.Event.noConfusion h
  lapses := fun _ h => Agenda.Event.noConfusion h

/-- A run that begins is not put off, and has not been admitted. -/
theorem runAt_spawn (C : Core) (n : Nat) (t : Trigger) (a : Admission) (c : Client) (r : Nat) :
    ((C.spawn n t a c).runAt r).deferral? = (C.runAt r).deferral? ∧
      ((C.spawn n t a c).runAt r).admitted = (C.runAt r).admitted := by
  unfold spawn runAt
  rcases getD_concat_or C.runs { rule := n, trigger := t, admission := a, client := c } default r with
    hx | ⟨hx, hx'⟩
  · rw [hx]
    exact ⟨rfl, rfl⟩
  · rw [hx, hx']
    exact ⟨rfl, rfl⟩

theorem enacts_define (hv : C.Valid) (d : Definition) : ∃ e, C.Enacts (C.define d) e := by
  have henforce : (C.enforce d).agenda = C.agenda := C.agenda_addInstance d _
  cases hn : C.number? d.id with
  | none =>
    have hdef : C.define d = C.enforce d := by rw [define, hn]
    refine ⟨.rest, .of_rest (hdef ▸ henforce) (fun r => .inl (by rw [hdef]; rfl)) ?_⟩
    rintro n ⟨id, hid, hid'⟩
    rw [number?_define] at hid'
    split at hid'
    · next he =>
      rw [← he, hn] at hid
      cases hid
    · exact hid' hid
  | some old =>
    have hlt := hv.number_lt hn
    have hdef : C.define d = (C.enforce d).retire old (C.pendingOf old) := by rw [define, hn]
    have hpending : C.pendingOf old = (C.enforce d).pendingOf old := by
      simp [pendingOf, enforce, List.getElem?_append_left hlt]
    have hlt' : old < (C.enforce d).instances.length := by
      simp only [enforce, List.length_append]
      exact Nat.lt_add_right _ hlt
    refine ⟨.drops old, .of_retire ?_ ?_ ?_⟩
    · rw [hdef, hpending, agenda_retire _ hlt', henforce]
    · intro r
      rw [hdef, retire, admitted_cancelPending]
      rfl
    · intro m
      constructor
      · rintro ⟨id, hid, hid'⟩
        rw [number?_define] at hid'
        split at hid'
        · next he =>
          rw [← he, hn] at hid
          exact (Option.some.inj hid).symm
        · exact absurd hid hid'
      · rintro rfl
        refine ⟨d.id, hn, ?_⟩
        rw [number?_define, if_pos rfl]
        exact fun h => Nat.ne_of_gt hlt (Option.some.inj h)

theorem enacts_deregister (hv : C.Valid) {id : String} {n : Nat} (hn : C.number? id = some n) :
    C.Enacts (C.deregister id n) (.drops n) := by
  have hlt := hv.number_lt hn
  refine .of_retire ?_ ?_ ?_
  · exact agenda_retire { C with registered := C.registered.filter (·.1 != id) } hlt
  · intro r
    rw [deregister, retire, admitted_cancelPending]
    rfl
  · intro m
    constructor
    · rintro ⟨id', hid, hid'⟩
      rw [number?_deregister] at hid'
      split at hid'
      · next he =>
        rw [← he, hn] at hid
        exact (Option.some.inj hid).symm
      · exact absurd hid hid'
    · rintro rfl
      refine ⟨id, hn, ?_⟩
      rw [number?_deregister, if_pos rfl]
      simp

theorem agenda_unguard (C : Core) (name : String) : (C.unguard name).agenda = C.agenda := by
  unfold unguard
  split
  · exact C.agenda_modifyInstance _ (fun _ => rfl) fun _ => rfl
  · rfl

/-- **A change is one event of the agenda.** -/
theorem Change.enacts (h : C.Change C') (hv : C.Valid) (hu : C.Unheard) : ∃ e, C.Enacts C' e := by
  cases h with
  | turns hr ht => exact enacts_turn hv hr ht
  | defers hr hd => exact ⟨_, enacts_defer hv hu hr hd⟩
  | @spawns n hn t a c =>
    refine ⟨.rest, .of_rest ?_ (fun r => .inl (C.runAt_spawn n t a c r).2) (not_ousts rfl)⟩
    exact agenda_eq (fun r => (C.runAt_spawn n t a c r).1) (fun _ => rfl) fun _ => rfl
  | @abandons r hr ha hs =>
    refine ⟨.rest, .of_rest ?_ ?_ (not_ousts rfl)⟩
    · refine C.agenda_put_same hr (hv.run r hr) ?_ rfl rfl
      have hnone : (C.runAt r).deferral? = none := by
        unfold Run.deferral?
        split
        · next hd => rw [hd] at hs; cases hs
        · rfl
      exact hnone.symm
    · exact C.admitted_put rfl hr (.inl rfl)
  | adds d =>
    exact ⟨.rest, .of_rest (C.agenda_addInstance d _) (fun _ => .inl rfl) (not_ousts rfl)⟩
  | @defines d hd => exact enacts_define hv d
  | deregisters hn => exact ⟨_, enacts_deregister hv hn⟩
  | tweaks ha => exact ⟨.rest, .of_rest (agenda_alike ha) (fun _ => .inl rfl) (not_ousts rfl)⟩
  | @guards n slot hs name =>
    refine ⟨.rest, .of_rest ?_ (fun r => .inl ?_) (not_ousts ?_)⟩
    · exact (agenda_unguard _ name).trans
        (C.agenda_modifyInstance n (fun _ => rfl) fun _ => rfl)
    · exact congrArg Run.admitted (unguard_runAt _ name r)
    · exact unguard_registered _ name
  | unguards name =>
    exact ⟨.rest, .of_rest (C.agenda_unguard name)
      (fun r => .inl (congrArg Run.admitted (C.unguard_runAt name r)))
      (not_ousts (C.unguard_registered name))⟩
  | _ => exact ⟨.rest, .of_rest rfl (fun _ => .inl rfl) (not_ousts rfl)⟩

theorem Step.enacts (h : C.Step C') (hv : C.Valid) (hu : C.Unheard) : ∃ e, C.Enacts C' e := by
  cases h with
  | change h => exact h.enacts hv hu
  | forgets => exact ⟨.rest, .of_rest rfl (fun _ => .inl rfl) (not_ousts rfl)⟩
  | pass ht ha => exact ⟨.rest, .of_rest (agenda_alike ha) (fun _ => .inl rfl) (not_ousts rfl)⟩

end Core

namespace Engine

variable {E E' : Engine}

/-- The notification is admitted between the two states. -/
def Accepts (E E' : Engine) (r : Nat) : Prop := E.core.Accepts E'.core r

theorem Reachable.unheard (hE : E.Reachable) : E.core.Unheard := by
  refine hE.induction (fun E₀ hf => ?_) fun _ _ _ h hs => h.step hs
  obtain ⟨_, _, _, _, _, _, rfl⟩ := hf
  exact fun r _ => ⟨rfl, rfl⟩

theorem Reachable.enacts (hE : E.Reachable) (hs : Step E E') : ∃ e, E.core.Enacts E'.core e :=
  (hs.core hE.valid).enacts hE.valid hE.unheard

/-- **What instances believe about what they have put off is true.** -/
theorem Reachable.agenda_sound (hE : E.Reachable) : E.core.agenda.Sound := by
  have hboth : E.core.Unheard ∧ E.core.agenda.Sound := by
    refine hE.induction (P := fun C => C.Unheard ∧ C.agenda.Sound) (fun E₀ hf => ?_) ?_
    · refine ⟨hf.reachable.unheard, ?_⟩
      obtain ⟨_, _, _, _, _, _, rfl⟩ := hf
      exact .of_none (fun _ => rfl) fun _ => rfl
    · rintro C C' hv ⟨hu, hsound⟩ hs
      obtain ⟨e, he⟩ := hs.enacts hv hu
      exact ⟨hu.step hs, he.agenda ▸ hsound.after he.allows⟩
  exact hboth.2

end Engine

end ReactiveRules
