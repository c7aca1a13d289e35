import ReactiveRules.Proofs.Engine.Awake

/-!
# `Proofs/Engine/InForce.lean` — what is left of an instance out of force

Replacing or deregistering an instance retires it for good (`Core.Lasts`). A run that had not come
past its admission by then, or that had its evaluation put off, never attempts its action. A run that
waited for the slot, or whose action was put off, is ready for a turn from then on; it goes on only if
that turn finds the slot free, or the delay over. **The others that can still attempt it are those
whose condition was being judged** (`Engine.attempts_out_of_force`).
-/

set_option autoImplicit false

namespace ReactiveRules

open Relation (ReflTransGen)

/-! ## Losing an id -/

namespace Core

variable {C C' : Core} {id : String} {n : Nat}

theorem retired_retire (C : Core) (hn : n < C.instances.length) (p : Option (Nat × Nat)) :
    ((C.retire n p).ruleAt n).retired = true := by
  rw [retire, ruleAt_cancelPending, C.ruleAt_modifyInstance hn, if_pos rfl]
  rfl

/-- **An instance that loses its id is retired.** -/
theorem Change.retired_of_lost (h : C.Change C') (hv : C.Valid) (hn : C.number? id = some n)
    (hlost : C'.number? id ≠ some n) : (C'.ruleAt n).retired = true := by
  have hlt := hv.number_lt hn
  have hsame : C'.registered = C.registered → (C'.ruleAt n).retired = true := by
    intro hr
    exact absurd ((number?_eq_of_registered hr id).trans hn) hlost
  cases h with
  | @defines d hd =>
    rw [number?_define] at hlost
    split at hlost
    · next hid =>
      subst hid
      have hdef : C.define d = (C.enforce d).retire n (C.pendingOf n) := by rw [define, hn]
      rw [hdef]
      apply retired_retire
      simp only [enforce, List.length_append]
      exact Nat.lt_add_right _ hlt
    · exact absurd hn hlost
  | @deregisters other m hm =>
    rw [number?_deregister] at hlost
    split at hlost
    · next hid =>
      subst hid
      have hmn : m = n := Option.some.inj (hm.symm.trans hn)
      subst hmn
      exact retired_retire { C with registered := C.registered.filter (·.1 != other) } hlt _
    · exact absurd hn hlost
  | defers hr hd => exact hsame (by simp)
  | guards hs name => exact hsame (by simp [guard, modifyInstance])
  | unguards name => exact hsame (by simp)
  | _ => exact hsame rfl

/-- An instance that has been in force for an id is in force for it or retired. -/
structure Lasts (id : String) (n : Nat) (C : Core) : Prop where
  lt : n < C.instances.length
  inForce : C.number? id = some n ∨ (C.ruleAt n).retired = true

theorem Lasts.step (h : Lasts id n C) (hv : C.Valid) (hs : C.Step C') : Lasts id n C' := by
  have hf := hs.follows hv
  refine ⟨Nat.lt_of_lt_of_le h.lt hf.instances, ?_⟩
  rcases h.inForce with hn | hr
  · by_cases hlost : C'.number? id = some n
    · exact .inl hlost
    · refine .inr ?_
      cases hs with
      | change hc => exact hc.retired_of_lost hv hn hlost
      | forgets => exact absurd hn hlost
      | pass ht ha => exact absurd hn hlost
  · exact .inr ((hf.rule n h.lt).retired hr)

end Core

/-! ## Runs of a retired instance -/

/-- Where a run of a retired instance attempts nothing any more. -/
def Stage.isSpent : Stage → Bool
  | .arriving | .deferred .. | .acting .. | .ended _ => true
  | _ => false

namespace Scene

variable {now : Nat} {S S' : Scene} {ls : List Listener}

theorem Acts.isSpent (h : Acts now S S') : S'.run.stage.isSpent = true := by
  cases h with
  | unread e => rfl
  | acting e => rfl

theorem Claims.isSpent (h : Claims now ls S S') (hr : S.rule.retired = true) :
    S'.run.stage.isSpent = true := by
  cases h with
  | retired _ => rfl
  | starts h _ _ => exact absurd (h.symm.trans hr) Bool.noConfusion
  | busy h _ _ => exact absurd (h.symm.trans hr) Bool.noConfusion
  | waits h _ _ => exact absurd (h.symm.trans hr) Bool.noConfusion

/-- How a run of a retired instance takes a turn. -/
inductive Lingers (now : Nat) (S S' : Scene) : Prop
  | spent (hs' : S'.run.stage.isSpent = true)
  | gains (hs : S.run.stage = .waiting) (hw : S.number ∉ S.rule.slot.waiting)
    (hc : S.rule.slot.claim?.isSome = true)
  | judges {e : Nat} (hs : S.run.stage = .judging e)

/-- **A run of a retired instance comes no further, unless its condition is being judged or it finds
the slot free for which it waits.** -/
theorem Turn.lingers (h : Turn now ls S S') (hr : S.rule.retired = true) : Lingers now S S' := by
  cases h with
  | paused hs hp => exact .spent rfl
  | rests hs hp hr => exact .spent rfl
  | arrives hs hp _ hd ha => exact .spent (ha.isSpent hr)
  | fires hs hd ha =>
    refine .spent (ha.isSpent ?_)
    simp only [mapRule, Instance.mapRule, Rule.finishPending_eq]
    exact hr
  | cancelled hs => exact .spent rfl
  | gains hs hw hc ha => exact .gains hs hw (by rw [hc]; rfl)
  | leaves hs _ => exact .spent rfl
  | queues hs hw hc hr' => exact absurd (hr'.symm.trans hr) Bool.noConfusion
  | acts hs hd ha => exact .spent ha.isSpent
  | forgoes hs _ => exact .spent rfl
  | broke hs m => exact .judges hs
  | decides hs ha => exact .judges hs
  | concludes hs result => cases result <;> exact .spent rfl

end Scene

namespace Engine

variable {E E' E₀ E₁ : Engine} {id : String} {n : Nat}

/-- The run waits for the slot and can have it. -/
def Gains (E : Engine) (r : Nat) : Prop :=
  (E.runAt r).stage = .waiting ∧ r ∉ (E.ruleOf r).slot.waiting ∧
    (E.ruleOf r).slot.claim?.isSome = true

/-- What has become, at `E`, of a run of an instance that was retired at `E₁`. -/
inductive Lingers (E₁ E : Engine) (r : Nat) : Prop
  | spent (hs : (E.runAt r).stage.isSpent = true)
  | judged {e : Nat} (hs : (E₁.runAt r).stage = .judging e)
  | delayed {due : Nat} (hs : (E₁.runAt r).stage = .delayed due)
    (hs' : (E.runAt r).stage = .delayed due)
  | waits (hs : (E₁.runAt r).stage = .waiting) (hs' : (E.runAt r).stage = .waiting)
  | gained (hs : (E₁.runAt r).stage = .waiting) {E₂ : Engine} (h₁ : Steps E₁ E₂)
    (h₂ : Steps E₂ E) (hg : E₂.Gains r)

theorem Lingers.start (E : Engine) (r : Nat) : Lingers E E r := by
  cases hs : (E.runAt r).stage with
  | judging e => exact .judged hs
  | delayed due => exact .delayed hs hs
  | waiting => exact .waits hs hs
  | _ => exact .spent (by rw [hs]; rfl)

/-- What a run has become that takes no turn of its own. -/
theorem Lingers.of_run_eq {r : Nat} (h : Lingers E₁ E r) (hs : Step E E')
    (hx : (E'.runAt r).stage = (E.runAt r).stage) : Lingers E₁ E' r := by
  cases h with
  | spent hsp => exact .spent (by rw [hx]; exact hsp)
  | judged hj => exact .judged hj
  | delayed hd hd' => exact .delayed hd (hx.trans hd')
  | waits hw hw' => exact .waits hw (hx.trans hw')
  | gained hw h₁ h₂ hg => exact .gained hw h₁ (h₂.tail hs) hg

/-- What a run has become that takes a turn. -/
theorem Lingers.of_turn {r : Nat} (h : Lingers E₁ E r) (h₁ : Steps E₁ E) (hs : Step E E')
    (hret : (E.ruleOf r).retired = true) {S : Scene}
    (ht : Scene.Turn E.core.now E.core.listeners (E.core.scene r) S)
    (hx : E'.runAt r = S.run) : Lingers E₁ E' r := by
  have hl := ht.lingers hret
  have hstage : (E.core.scene r).run.stage = (E.runAt r).stage := rfl
  cases h with
  | judged hj => exact .judged hj
  | gained hw h₁ h₂ hg => exact .gained hw h₁ (h₂.tail hs) hg
  | spent hsp =>
    cases hl with
    | spent hs' => exact .spent (by rw [hx]; exact hs')
    | gains hs _ _ => rw [← hstage, hs] at hsp; cases hsp
    | judges hs => rw [← hstage, hs] at hsp; cases hsp
  | delayed hd hd' =>
    cases hl with
    | spent hs' => exact .spent (by rw [hx]; exact hs')
    | gains hs _ _ => rw [← hstage, hs] at hd'; cases hd'
    | judges hs => rw [← hstage, hs] at hd'; cases hd'
  | waits hw hw' =>
    cases hl with
    | spent hs' => exact .spent (by rw [hx]; exact hs')
    | gains hs₂ hfree hopen => exact .gained hw h₁ (.single hs) ⟨hs₂, hfree, hopen⟩
    | judges hs => rw [← hstage, hs] at hw'; cases hw'

theorem Lingers.step {r : Nat} (h : Lingers E₁ E r) (hv : E.core.Valid) (h₁ : Steps E₁ E)
    (hs : Step E E') (hr : r < E.core.runs.length) (hret : (E.ruleOf r).retired = true) :
    Lingers E₁ E' r := by
  cases (hs.core hv).run hr with
  | same hx => exact h.of_run_eq hs (congrArg Run.stage hx)
  | cancelled hx =>
    -- a deferral that is cancelled stays one
    have hcancel : (E'.runAt r).stage = ((E.runAt r).cancelDeferral).stage := congrArg Run.stage hx
    unfold Run.cancelDeferral at hcancel
    split at hcancel
    · exact .spent (by rw [hcancel]; rfl)
    · exact h.of_run_eq hs hcancel
  | @turned S ht hc =>
    have hnum : S.number = r := ht.follows.number
    refine h.of_turn h₁ hs hret ht ?_
    rw [← core_runAt, hc, Core.runAt_put_self _ hnum hr]
  | deferred hd hx =>
    refine .spent ?_
    rw [← core_runAt, hx]
    rfl
  | abandoned _ _ hx =>
    refine .spent ?_
    rw [← core_runAt, hx]
    rfl

/-- An instance that is retired is so for all its runs from then on. -/
theorem Steps.ruleOf_retired (h : Steps E₁ E) (hE₁ : E₁.Reachable)
    (hn : n < E₁.core.instances.length) (hret : (E₁.core.ruleAt n).retired = true) {r : Nat}
    (hr : (E.runAt r).rule = n) : (E.ruleOf r).retired = true := by
  have hi := ((Steps.follows h hE₁).rule n hn).retired hret
  rw [← hr] at hi
  exact hi

/-- **After an instance was retired, its runs are spent, or one of the few that linger.** -/
theorem Reachable.lingers (hE : E₁.Reachable) (hn : n < E₁.core.instances.length)
    (hret : (E₁.core.ruleAt n).retired = true) (hst : Steps E₁ E) :
    ∀ r, r < E.core.runs.length → (E.runAt r).rule = n → Lingers E₁ E r := by
  induction hst with
  | refl => exact fun r _ _ => Lingers.start E₁ r
  | @tail E E' h₁ hs ih =>
    intro r hr' hrule
    have hv := (hE.steps h₁).valid
    have hc := hs.core hv
    by_cases hr : r < E.core.runs.length
    · have hrule' : (E.runAt r).rule = n := ((hc.follows hv).run r hr).rule.symm.trans hrule
      have hretE := Steps.ruleOf_retired h₁ hE hn hret hrule'
      exact (ih r hr hrule').step hv h₁ hs hr hretE
    · obtain ⟨m, t, a, c, hx, -⟩ := hc.run_new (Nat.le_of_not_lt hr) hr'
      refine .spent ?_
      rw [← core_runAt, hx]
      rfl

/-! ## Runs that are ready and take no turn -/

/-- From `E₁` to `E`, the run is ready for a turn and takes none. -/
def Awaits (E₁ E : Engine) (r : Nat) : Prop :=
  ∀ E₂, Steps E₁ E₂ → Steps E₂ E →
    Job.run r ∈ E₂.ready ∧ ∀ second, ¬ Steps (E₂.turn (.run r) second) E

/-- The action of the run is put off, and its delay runs out before the run takes its turn. -/
structure Overdue (E₁ E : Engine) (r due : Nat) : Prop where
  before : (E₁.runAt r).stage = .delayed due
  after : (E.runAt r).stage = .delayed due
  past : due ≤ E.now
  awaits : E₁.Awaits E r

/-- **A run of a retired instance that listens all the time has not had its turn.** -/
theorem Reachable.awaits (hE₁ : E₁.Reachable) {r : Nat} (hret : (E₁.ruleOf r).retired = true)
    (hl : (E₁.runAt r).stage.listens = true)
    (hsame : (E.runAt r).stage = (E₁.runAt r).stage) : E₁.Awaits E r := by
  intro E₂ h₁ h₂
  have hE₂ := hE₁.steps h₁
  have hr := lt_of_listens hl
  have hback : (E₂.runAt r).stage.LeadsTo (E₁.runAt r).stage := hsame ▸ Steps.leadsTo h₂ hE₂ r
  have hstage : (E₂.runAt r).stage = (E₁.runAt r).stage :=
    (Steps.leadsTo h₁ hE₁ r).eq_of_listens hback hl
  have hrule := ((Steps.follows h₁ hE₁).run r hr).rule
  have hcalled : E₂.Called r :=
    ⟨Steps.ruleOf_retired h₁ hE₁ (hE₁.valid.run r hr) hret hrule, by rw [hstage]; exact hl⟩
  have hready := hE₂.awake.called r hcalled
  refine ⟨hready, fun second hturn => ?_⟩
  -- after its turn the run does not listen, and comes no more to where it did
  have hE₃ := hE₂.step (.turn (.run r) second)
  have hnot : ((E₂.turn (.run r) second).runAt r).stage.listens = false :=
    not_listens_turn hE₂.valid hcalled hready second
  have h₃ : (E₂.runAt r).stage.LeadsTo ((E₂.turn (.run r) second).runAt r).stage :=
    Steps.leadsTo (.single (.turn (.run r) second)) hE₂ r
  have h₄ : ((E₂.turn (.run r) second).runAt r).stage.LeadsTo (E₂.runAt r).stage := by
    rw [hstage, ← hsame]
    exact Steps.leadsTo hturn hE₃ r
  have heq := h₃.eq_of_listens h₄ hcalled.2
  rw [heq, hcalled.2] at hnot
  cases hnot

/-- A run that has its action put off had it put off before, or at a moment in between, until later. -/
theorem Reachable.delayed_since (hE₁ : E₁.Reachable) (hst : Steps E₁ E) {r due : Nat}
    (hd : (E.runAt r).stage = .delayed due) :
    (E₁.runAt r).stage = .delayed due ∨
      ∃ E₂, Steps E₁ E₂ ∧ Steps E₂ E ∧ E₂.now < due ∧ (E₂.runAt r).stage = .delayed due := by
  induction hst with
  | refl => exact .inl hd
  | @tail E E' h₁ hs ih =>
    have hv := (hE₁.steps h₁).valid
    have hr : r < E'.core.runs.length := lt_of_delayed hd
    obtain ⟨-, hd' | ⟨-, -, hlater⟩⟩ := (hs.core hv).delayed hv hr hd
    · rcases ih hd' with hd₁ | ⟨E₂, h₂, h₃, hnow, hd₂⟩
      · exact .inl hd₁
      · exact .inr ⟨E₂, h₂, h₃.tail hs, hnow, hd₂⟩
    -- the step itself has put it off
    · exact .inr ⟨E', h₁.tail hs, .refl, hlater, hd⟩

/-- An instance that has lost its id is retired. -/
theorem Reachable.retired_of_lost (hE : E₀.Reachable) (hn : E₀.registry.number? id = some n)
    (h₀ : Steps E₀ E₁) (hout : E₁.registry.number? id ≠ some n) :
    n < E₁.core.instances.length ∧ (E₁.core.ruleAt n).retired = true := by
  have hlast : Core.Lasts id n E₁.core :=
    h₀.induction hE ⟨hE.valid.number_lt hn, .inl hn⟩ fun _ _ hv h hs => h.step hv hs
  exact ⟨hlast.lt, hlast.inForce.resolve_left hout⟩

/-- Where a run stands right before its action. -/
theorem Reachable.before_attempt (hE : E.Reachable) (hs : Step E E') {r : Nat}
    (ha : E.Attempts E' r) : r < E.core.runs.length ∧
      ((∃ e, (E.runAt r).stage = .judging e) ∧ (E.ruleOf r).definition.executionDelay = 0 ∨
        ∃ due, due ≤ E.now ∧ (E.runAt r).stage = .delayed due) := by
  obtain ⟨hlt, hreach, -⟩ := (hs.core hE.valid).attempt ha
  refine ⟨hlt, ?_⟩
  cases hreach with
  | delayed hs' hdue => exact .inr ⟨_, hdue, hs'⟩
  | judged hs' _ hd => exact .inl ⟨⟨_, hs'⟩, hd⟩

/-- **An instance that is out of force has no attempt begun but by a run whose condition was being
judged at that time, or that took its next turn too late to hear of it: when the slot was free for
which it waited, or the delay over.** -/
theorem attempts_out_of_force {E₀ E₁ E E' : Engine} {id : String} {n r : Nat} (hE : E₀.Reachable)
    (hn : E₀.registry.number? id = some n) (h₀ : Steps E₀ E₁)
    (hout : E₁.registry.number? id ≠ some n) (h₁ : Steps E₁ E) (hs : Step E E')
    (ha : E.Attempts E' r) (hr : (E.runAt r).rule = n) :
    ((∃ e, (E₁.runAt r).stage = .judging e) ∧
        ((∃ e, (E.runAt r).stage = .judging e) ∧ (E.ruleOf r).definition.executionDelay = 0 ∨
          ∃ E₂ due, Steps E₁ E₂ ∧ Steps E₂ E ∧ E₂.now < due ∧ E₂.Overdue E r due)) ∨
      (∃ due, E₁.Overdue E r due) ∨
      ((E₁.runAt r).stage = .waiting ∧
        ∃ E₂, Steps E₁ E₂ ∧ Steps E₂ E ∧ E₂.Gains r ∧ E₁.Awaits E₂ r) := by
  have hE₁ := hE.steps h₀
  obtain ⟨hlt, hret⟩ := hE.retired_of_lost hn h₀ hout
  obtain ⟨hlt', hbefore⟩ := (hE₁.steps h₁).before_attempt hs ha
  -- whenever the run listens on its way to `E`, its instance is retired by then
  have hawaits : ∀ E₂ E₃, Steps E₁ E₂ → Steps E₂ E₃ → Steps E₃ E →
      (E₂.runAt r).stage.listens = true → (E₃.runAt r).stage = (E₂.runAt r).stage →
      E₂.Awaits E₃ r := by
    intro E₂ E₃ h₂ h₃ h₄ hl hsame
    have hE₂ := hE₁.steps h₂
    have hrule : (E₂.runAt r).rule = n :=
      ((Steps.follows (h₃.trans h₄) hE₂).run r (lt_of_listens hl)).rule.symm.trans hr
    exact hE₂.awaits (Steps.ruleOf_retired h₂ hE₁ hlt hret hrule) hl hsame
  have hstage : (E.runAt r).stage.isSpent = false ∧ (E.runAt r).stage ≠ .waiting := by
    rcases hbefore with ⟨⟨e, he⟩, -⟩ | ⟨due, -, hd⟩
    · rw [he]
      exact ⟨rfl, Stage.noConfusion⟩
    · rw [hd]
      exact ⟨rfl, Stage.noConfusion⟩
  cases hE₁.lingers hlt hret h₁ r hlt' hr with
  | spent hsp => exact absurd (hsp.symm.trans hstage.1) Bool.noConfusion
  | waits hw hw' => exact absurd hw' hstage.2
  | gained hw h₂ h₃ hg =>
    refine .inr (.inr ⟨hw, _, h₂, h₃, hg, ?_⟩)
    exact hawaits E₁ _ .refl h₂ h₃ (by rw [hw]; rfl) (hg.1.trans hw.symm)
  | delayed hd hd' =>
    rcases hbefore with ⟨⟨e, he⟩, -⟩ | ⟨due, hdue, hs'⟩
    · rw [hd'] at he
      cases he
    · rw [hd'] at hs'
      cases hs'
      refine .inr (.inl ⟨_, hd, hd', hdue, ?_⟩)
      exact hawaits E₁ E .refl h₁ .refl (by rw [hd]; rfl) (hd'.trans hd.symm)
  | judged hj =>
    refine .inl ⟨⟨_, hj⟩, ?_⟩
    rcases hbefore with hnow | ⟨due, hdue, hd⟩
    · exact .inl hnow
    · rcases hE₁.delayed_since h₁ hd with hd₁ | ⟨E₂, h₂, h₃, hlater, hd₂⟩
      · rw [hj] at hd₁
        cases hd₁
      · refine .inr ⟨E₂, due, h₂, h₃, hlater, hd₂, hd, hdue, ?_⟩
        exact hawaits E₂ E h₂ h₃ .refl (by rw [hd₂]; rfl) (hd.trans hd₂.symm)

/-- A rule whose condition takes it out of force, and holds then. -/
def parting : Definition :=
  { prompt with condition := "engine(\"deregister\", \"r1\") == \"ok\"" }

/-- It is notified, and its condition is about to be judged. -/
def inForce : Engine :=
  (((blank.serve (.bind "engine" .order)).serve (.define parting)).serve
    (.notify 0 change .dropIfBusy)).next

theorem reachable_inForce : inForce.Reachable := by
  have h₁ := fresh_blank.reachable.step (.request (q := .bind "engine" .order) trivial)
  have h₂ := h₁.step (.request (q := .define parting) trivial)
  have h₃ := h₂.step (.request (admits_notify (n := 0) (by decide +kernel) change .dropIfBusy))
  exact h₃.steps (steps_next _)

/-- The run whose condition has taken its rule out of force was being judged then. -/
theorem parting_judged : ∃ e, (inForce.next.runAt 0).stage = .judging e := by
  have hout : inForce.next.registry.number? "r1" ≠ some 0 := by decide +kernel
  have h := attempts_out_of_force reachable_inForce (n := 0) (r := 0) (by decide +kernel)
    (.single (step_next (by decide +kernel))) hout .refl (step_next (by decide +kernel))
    (by decide +kernel) (by decide +kernel)
  have hdue : (inForce.next.runAt 0).due? = none := by decide +kernel
  have hflight : (inForce.next.runAt 0).stage.inFlight = true := by decide +kernel
  rcases h with ⟨hj, -⟩ | ⟨due, hpast⟩ | ⟨hw, -⟩
  · exact hj
  · rw [Run.due?, hpast.before] at hdue
    cases hdue
  · rw [hw] at hflight
    cases hflight

/-- **The run attempts its action when nothing is in force for the id any more.** -/
theorem parting_attempts_out_of_force :
    inForce.Reachable ∧ inForce.registry.number? "r1" = some 0 ∧ Steps inForce inForce.next ∧
      inForce.next.registry.number? "r1" = none ∧ Step inForce.next inForce.next.next ∧
      inForce.next.Attempts inForce.next.next 0 ∧ (inForce.next.runAt 0).rule = 0 :=
  ⟨reachable_inForce, by decide +kernel, .single (step_next (by decide +kernel)),
    by decide +kernel, step_next (by decide +kernel), by decide +kernel, by decide +kernel⟩

end Engine

end ReactiveRules
