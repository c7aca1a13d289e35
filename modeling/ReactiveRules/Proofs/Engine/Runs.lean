import ReactiveRules.Proofs.Engine.Reach

/-!
# `Proofs/Engine/Runs.lean` — a step as a single run sees it

Most steps leave a given run alone. **`Core.Step.run` says what else can happen to it**: its deferred
evaluation is cancelled, its client goes away, its evaluation is put off, or it takes a turn. Only in
a turn of its own can a run attempt its action (`Core.Step.turn_of_log`), and then it stood before
its action already, with its condition judged or its delay over (`Scene.Turn.attempt`).
-/

set_option autoImplicit false

namespace ReactiveRules

namespace Milestone

def isAttempt : Milestone → Bool
  | .attempted => true
  | _ => false

def isConclusion : Milestone → Bool
  | .concluded => true
  | _ => false

end Milestone

namespace Run

/-- How often the action was attempted. -/
def attempts (x : Run) : Nat := x.log.countP Milestone.isAttempt

/-- How often an attempt has ended. -/
def conclusions (x : Run) : Nat := x.log.countP Milestone.isConclusion

end Run

/-- Is the run between its start and its end? -/
def Stage.inFlight : Stage → Bool
  | .judging _ | .delayed _ | .acting .. => true
  | _ => false

namespace Engine

/-- The run attempts its action between the two states. -/
def Attempts (E E' : Engine) (r : Nat) : Prop := (E.runAt r).attempts < (E'.runAt r).attempts

/-- An attempt of the run ends between the two states. -/
def Concludes (E E' : Engine) (r : Nat) : Prop :=
  (E.runAt r).conclusions < (E'.runAt r).conclusions

instance (E E' : Engine) (r : Nat) : Decidable (E.Attempts E' r) := inferInstanceAs (Decidable (_ < _))

instance (E E' : Engine) (r : Nat) : Decidable (E.Concludes E' r) :=
  inferInstanceAs (Decidable (_ < _))

end Engine

/-! ## What can happen to a run -/

/-- What a step can do to a run that there is. -/
inductive Core.RunStep (C C' : Core) (r : Nat) : Prop
  | same (h : C'.runAt r = C.runAt r)
  | cancelled (h : C'.runAt r = (C.runAt r).cancelDeferral)
  | turned {S : Scene} (ht : Scene.Turn C.now C.listeners (C.scene r) S) (hc : C' = C.put S)
  | deferred (hd : Scene.Defers C.now (C.scene r))
    (hx : C'.runAt r = (((C.scene r).accept C.now).defer C.now).run)
  | abandoned (ha : (C.runAt r).answered = false) (hs : (C.runAt r).stage.isSuspended = true)
    (hx : C'.runAt r = (C.scene r).abandon.run)

namespace Core

variable {C C' : Core}

theorem runAt_cancelPending (C : Core) (p : Option (Nat × Nat)) (r : Nat) :
    (C.cancelPending p).runAt r = C.runAt r ∨
      (C.cancelPending p).runAt r = (C.runAt r).cancelDeferral := by
  cases p with
  | none => exact .inl rfl
  | some p =>
    have h := C.runAt_cancelDeferral p.2 r
    split at h
    · exact .inr h
    · exact .inl h

/-- Retiring an instance cancels at most what it had put off. -/
theorem runStep_retire (C₁ : Core) {n : Nat} {p : Option (Nat × Nat)} {r : Nat}
    (h₁ : C₁.runAt r = C.runAt r) : C.RunStep (C₁.retire n p) r := by
  have hm : (C₁.modifyInstance n (.mapRule Rule.retire)).runAt r = C.runAt r := h₁
  rcases runAt_cancelPending (C₁.modifyInstance n (.mapRule Rule.retire)) p r with hc | hc
  · exact .same (hc.trans hm)
  · exact .cancelled (by rw [retire, hc, hm])

theorem unguard_runAt (C : Core) (name : String) (r : Nat) :
    (C.unguard name).runAt r = C.runAt r := by
  simp [runAt]

theorem Change.run (h : C.Change C') {r : Nat} (hr : r < C.runs.length) : C.RunStep C' r := by
  cases h with
  | @turns m hm S ht =>
    by_cases hrm : m = r
    · subst hrm
      exact .turned ht rfl
    · have hn : S.number = m := ht.follows.number
      exact .same (C.runAt_put_ne (hn ▸ hrm))
  | @defers m hm hd =>
    by_cases hrm : m = r
    · subst hrm
      exact .deferred hd (runAt_put_self _ rfl (by simpa using hm))
    · have hx := runAt_put_ne (C.cancelPending (C.scene m).rule.pending)
        (S := ((C.scene m).accept C.now).defer C.now) hrm
      rcases C.runAt_cancelPending (C.scene m).rule.pending r with hc | hc
      · exact .same (hx.trans hc)
      · exact .cancelled (hx.trans hc)
  | spawns hn t a c => exact .same (getD_append _ hr)
  | @abandons m hm ha hs =>
    by_cases hrm : m = r
    · subst hrm
      exact .abandoned ha hs (C.runAt_put_self rfl hm)
    · exact .same (C.runAt_put_ne hrm)
  | @defines d hd =>
    unfold define
    split
    · exact runStep_retire (C.enforce d) rfl
    · exact .same rfl
  | @deregisters id n hn => exact runStep_retire { C with registered := _ } rfl
  | guards hs name => exact .same (unguard_runAt _ name r)
  | unguards name => exact .same (unguard_runAt C name r)
  | _ => exact .same rfl

theorem Step.run (h : C.Step C') {r : Nat} (hr : r < C.runs.length) : C.RunStep C' r := by
  cases h with
  | change h => exact h.run hr
  | forgets => exact .same rfl
  | pass ht ha => exact .same rfl

/-- A run that there was not is one that has just arrived. -/
theorem Step.run_new (h : C.Step C') {r : Nat} (hr : C.runs.length ≤ r) (hr' : r < C'.runs.length) :
    ∃ n t a c, C'.runAt r = { rule := n, trigger := t, admission := a, client := c } ∧
      C' = C.spawn n t a c := by
  cases h with
  | change h =>
    rcases h.runs_length with hl | ⟨n, t, a, c, -, rfl⟩
    · omega
    · have hl : r = C.runs.length := by simp [spawn] at hr'; omega
      subst hl
      exact ⟨n, t, a, c, by simp [spawn, runAt], rfl⟩
  | forgets => exact absurd hr' (Nat.not_lt.mpr hr)
  | pass ht ha => exact absurd hr' (Nat.not_lt.mpr hr)

end Core

/-- A run that is over stays as it is. -/
theorem Core.Step.run_over {C C' : Core} (h : C.Step C') {r : Nat} (hr : r < C.runs.length)
    (ho : (C.runAt r).isOver = true) : C'.runAt r = C.runAt r := by
  cases h.run hr with
  | same hx => exact hx
  | cancelled hx =>
    rw [hx]
    unfold Run.cancelDeferral
    split
    · next hs => simp [Run.isOver, hs] at ho
    · rfl
  | turned ht hc => exact absurd (ht.not_over.symm.trans ho) Bool.noConfusion
  | deferred hd hx =>
    have hs : (C.runAt r).stage = .arriving := hd.stage
    simp [Run.isOver, hs] at ho
  | abandoned ha hs hx =>
    unfold Run.isOver at ho
    split at ho
    · next hend => rw [hend] at hs; cases hs
    · cases ho

theorem Run.cancelDeferral_log (x : Run) : x.cancelDeferral.log = x.log := by
  unfold Run.cancelDeferral
  split <;> rfl

/-- **Only in a turn of its own does anything happen in a run.** -/
theorem Core.Step.turn_of_log {C C' : Core} (h : C.Step C') {r : Nat}
    (hl : (C'.runAt r).log ≠ (C.runAt r).log) :
    r < C.runs.length ∧
      ∃ S, Scene.Turn C.now C.listeners (C.scene r) S ∧ C' = C.put S ∧ C'.runAt r = S.run := by
  by_cases hr : r < C.runs.length
  · cases h.run hr with
    | same hx => exact absurd (by rw [hx]) hl
    | cancelled hx => exact absurd (by rw [hx, Run.cancelDeferral_log]) hl
    | @turned S ht hc =>
      have hn : S.number = r := ht.follows.number
      refine ⟨hr, S, ht, hc, ?_⟩
      rw [hc, Core.runAt_put_self C hn hr]
    | deferred hd hx => exact absurd (by rw [hx]; rfl) hl
    | abandoned ha hs hx => exact absurd (by rw [hx]; rfl) hl
  · -- a run that is not there yet has an empty log, and so has one that begins
    have hC : C.runAt r = default := Core.runAt_of_le (Nat.le_of_not_lt hr)
    by_cases hr' : r < C'.runs.length
    · obtain ⟨n, t, a, c, hx, -⟩ := h.run_new (Nat.le_of_not_lt hr) hr'
      exact absurd (by rw [hx, hC]; rfl) hl
    · have hC' : C'.runAt r = default := Core.runAt_of_le (Nat.le_of_not_lt hr')
      exact absurd (by rw [hC, hC']) hl

/-! ## Going forward -/

namespace Stage

def rank : Stage → Nat
  | .arriving => 0
  | .deferred .. => 1
  | .waiting => 2
  | .judging _ => 3
  | .delayed _ => 4
  | .acting .. => 5
  | .ended _ => 6

/-- What becomes of a stage. -/
inductive LeadsTo : Stage → Stage → Prop
  | same (s : Stage) : LeadsTo s s
  | cancelled (g due : Nat) (c : Bool) : LeadsTo (.deferred g due c) (.deferred g due true)
  | further {s t : Stage} (h : s.rank < t.rank) : LeadsTo s t

theorem rank_lt_of_isSuspended {s : Stage} (h : s.isSuspended = true) : s.rank < 6 := by
  cases s with
  | ended e => cases h
  | _ => simp [rank]

theorem LeadsTo.rank_le {s t : Stage} (h : s.LeadsTo t) : s.rank ≤ t.rank := by
  cases h with
  | same => exact Nat.le_refl _
  | cancelled g due c => exact Nat.le_refl _
  | further h => exact Nat.le_of_lt h

theorem LeadsTo.trans {s t u : Stage} (h : s.LeadsTo t) (h' : t.LeadsTo u) : s.LeadsTo u := by
  cases h with
  | same => exact h'
  | cancelled g due c =>
    cases h' with
    | same => exact .cancelled g due c
    | cancelled => exact .cancelled g due c
    | further h => exact .further h
  | further h => exact .further (Nat.lt_of_lt_of_le h h'.rank_le)

/-- A run that listens still has listened all the time. -/
theorem LeadsTo.eq_of_listens {s t : Stage} (h : s.LeadsTo t) (h' : t.LeadsTo s)
    (hl : s.listens = true) : t = s := by
  cases h with
  | same => rfl
  | cancelled g due c => cases hl
  | further h => exact absurd h'.rank_le (Nat.not_le.mpr h)

end Stage

namespace Scene

variable {now : Nat} {S S' : Scene} {ls : List Listener}

theorem conclude_rank (S : Scene) (now : Nat) (result : Except RuleError Json) :
    (S.conclude now result).run.stage.rank = 6 := by
  cases result <;> rfl

theorem Acts.rank (h : Acts now S S') : 5 ≤ S'.run.stage.rank := by
  cases h with
  | unread e => exact Nat.le_succ 5
  | acting e => exact Nat.le_refl 5

theorem Decides.rank (h : Decides now S S') : 4 ≤ S'.run.stage.rank := by
  cases h with
  | misjudged e => exact Nat.le_add_left 4 2
  | declines => exact Nat.le_add_left 4 2
  | proceeds hp =>
    cases hp with
    | rests hr => exact Nat.le_add_left 4 2
    | delays hr hd => exact Nat.le_refl 4
    | acts hr hd ha => exact Nat.le_of_succ_le ha.rank

theorem Starts.rank (h : Starts now ls S S') : 3 ≤ S'.run.stage.rank := by
  cases h with
  | rests hr => exact Nat.le_add_left 3 3
  | broke hr hv => exact Nat.le_add_left 3 3
  | vetoed hr hv => exact Nat.le_add_left 3 3
  | judges hr hv hj =>
    cases hj with
    | unread e => exact Nat.le_add_left 3 3
    | judging e => exact Nat.le_refl 3

theorem Claims.rank (h : Claims now ls S S') : 2 ≤ S'.run.stage.rank := by
  cases h with
  | retired h => exact Nat.le_add_left 2 4
  | starts h hs ha => exact Nat.le_of_succ_le ha.rank
  | busy h hs ha => exact Nat.le_add_left 2 4
  | waits h hs ha => exact Nat.le_refl 2

/-- No run stands at a deferral after its turn, or has not been looked at. -/
theorem Turn.rank (h : Turn now ls S S') : 2 ≤ S'.run.stage.rank := by
  have hended : 2 ≤ 6 := Nat.le_add_left 2 4
  cases h with
  | paused hs hp => exact hended
  | rests hs hp hr => exact hended
  | arrives hs hp hr hd ha => exact ha.rank
  | fires hs hd ha => exact ha.rank
  | cancelled hs => exact hended
  | gains hs hw hc ha => exact Nat.le_of_succ_le ha.rank
  | leaves hs hr => exact hended
  | queues hs hw hc hr =>
    rw [mapSlot, hs]
    exact Nat.le_refl 2
  | acts hs hd ha => exact Nat.le_trans (by decide) ha.rank
  | forgoes hs hr => exact hended
  | broke hs m => exact hended
  | decides hs ha => exact Nat.le_trans (by decide) ha.rank
  | concludes hs result =>
    rw [conclude_rank]
    exact hended

/-- **A turn takes a run further, or leaves it waiting.** -/
theorem Turn.leadsTo (h : Turn now ls S S') : S.run.stage.LeadsTo S'.run.stage := by
  -- only `queues` leaves the run where it is
  have further : ∀ {s : Stage} {n : Nat}, S.run.stage = s → s.rank < n →
      n ≤ S'.run.stage.rank → S.run.stage.LeadsTo S'.run.stage := by
    intro s n hs hn hle
    exact .further (hs ▸ Nat.lt_of_lt_of_le hn hle)
  cases h with
  | paused hs hp => exact further (n := 6) hs (by simp [Stage.rank]) (Nat.le_refl 6)
  | rests hs hp hr => exact further (n := 6) hs (by simp [Stage.rank]) (Nat.le_refl 6)
  | arrives hs hp hr hd ha => exact further hs (by simp [Stage.rank]) ha.rank
  | fires hs hd ha => exact further hs (by simp [Stage.rank]) ha.rank
  | cancelled hs => exact further (n := 6) hs (by simp [Stage.rank]) (Nat.le_refl 6)
  | gains hs hw hc ha => exact further hs (by simp [Stage.rank]) ha.rank
  | leaves hs hr => exact further (n := 6) hs (by simp [Stage.rank]) (Nat.le_refl 6)
  | queues hs hw hc hr => exact .same _
  | acts hs hd ha => exact further hs (by simp [Stage.rank]) ha.rank
  | forgoes hs hr => exact further (n := 6) hs (by simp [Stage.rank]) (Nat.le_refl 6)
  | broke hs m => exact further (n := 6) hs (by simp [Stage.rank]) (Nat.le_refl 6)
  | decides hs ha => exact further hs (by simp [Stage.rank]) ha.rank
  | concludes hs result =>
    exact further hs (by simp [Stage.rank]) (Nat.le_of_eq (conclude_rank _ _ result).symm)

end Scene

/-- **No step takes a run back.** -/
theorem Core.Step.leadsTo {C C' : Core} (h : C.Step C') (r : Nat) :
    (C.runAt r).stage.LeadsTo (C'.runAt r).stage := by
  by_cases hr : r < C.runs.length
  · cases h.run hr with
    | same hx => exact hx ▸ .same _
    | cancelled hx =>
      rw [hx]
      unfold Run.cancelDeferral
      split
      · next g due c hs => exact hs ▸ .cancelled g due c
      · exact .same _
    | @turned S ht hc =>
      have hnum : S.number = r := ht.follows.number
      rw [hc, runAt_put_self C hnum hr]
      exact ht.leadsTo
    | deferred hd hx =>
      have hs : (C.runAt r).stage = .arriving := hd.stage
      rw [hx, hs]
      exact .further Nat.zero_lt_one
    | abandoned ha hs hx => exact hx ▸ .further (Stage.rank_lt_of_isSuspended hs)
  · -- a run that there is not, or that begins, has not come anywhere
    have hC : C.runAt r = default := runAt_of_le (Nat.le_of_not_lt hr)
    by_cases hr' : r < C'.runs.length
    · obtain ⟨n, t, a, c, hx, -⟩ := h.run_new (Nat.le_of_not_lt hr) hr'
      rw [hC, hx]
      exact .same _
    · have hC' : C'.runAt r = default := runAt_of_le (Nat.le_of_not_lt hr')
      rw [hC, hC']
      exact .same _

/-- A run that is still arriving has not been touched. -/
theorem Core.Step.run_of_arriving {C C' : Core} (h : C.Step C') {r : Nat} (hr : r < C.runs.length)
    (ha : (C'.runAt r).stage = .arriving) : C'.runAt r = C.runAt r := by
  cases h.run hr with
  | same hx => exact hx
  | cancelled hx =>
    rw [hx] at ha ⊢
    unfold Run.cancelDeferral at ha ⊢
    split at ha
    · cases ha
    · rfl
  | @turned S ht hc =>
    have hnum : S.number = r := ht.follows.number
    have hrank := ht.rank
    rw [hc, runAt_put_self C hnum hr] at ha
    rw [ha] at hrank
    cases hrank
  | deferred hd hx =>
    rw [hx] at ha
    cases ha
  | abandoned hn hs hx =>
    rw [hx] at ha
    cases ha

namespace Engine

theorem Steps.leadsTo {E E' : Engine} (h : Steps E E') (hE : E.Reachable) (r : Nat) :
    (E.runAt r).stage.LeadsTo (E'.runAt r).stage := by
  induction h with
  | refl => exact .same _
  | @tail E₁ E₂ h₁ hs ih => exact ih.trans ((hs.core (hE.steps h₁).valid).leadsTo r)

end Engine

/-! ## Counting milestones -/

/-- A kind of milestone that has to do neither with listeners nor with records. -/
structure Milestone.Silent (p : Milestone → Bool) : Prop where
  heard : ∀ l s, p (.heard l s) = false
  recorded : ∀ x, p (.recorded x) = false

theorem Milestone.silent_isAttempt : Silent isAttempt := ⟨fun _ _ => rfl, fun _ => rfl⟩

theorem Milestone.silent_isConclusion : Silent isConclusion := ⟨fun _ _ => rfl, fun _ => rfl⟩

namespace Scene

variable {p : Milestone → Bool} {now : Nat} (S : Scene)

/-- How many milestones of a kind the run has passed. -/
def count (p : Milestone → Bool) (S : Scene) : Nat := S.run.log.countP p

theorem count_mark (m : Milestone) : (S.mark m).count p = S.count p + if p m then 1 else 0 := by
  simp [count, mark, List.countP_singleton]

theorem count_announce (hp : Milestone.Silent p) (s : RunSignal) (ls : List Listener) :
    (S.announce s ls).count p = S.count p := by
  simp [count, announce, List.countP_eq_zero, hp.heard]

theorem count_tell (hp : Milestone.Silent p) (s : RunSignal) : (S.tell s).count p = S.count p :=
  S.count_announce hp s _

theorem count_record (hp : Milestone.Silent p) (condition executed : Bool)
    (error : Option RuleError) :
    (S.record now condition executed error).count p = S.count p := by
  simp [count, record, mark, hp.recorded]

theorem count_breakOff (hp : Milestone.Silent p) (m : String) :
    (S.breakOff now m).count p = S.count p :=
  (count_record _ hp _ _ _).trans (count_tell _ hp _)

theorem count_conclude (hp : Milestone.Silent p) (result : Except RuleError Json) :
    (S.conclude now result).count p = S.count p + if p .concluded then 1 else 0 := by
  cases result with
  | ok v =>
    exact (((count_record _ hp _ _ _).trans (count_tell _ hp _)).trans (count_tell _ hp _)).trans
      (S.count_mark _)
  | error e =>
    exact ((count_record _ hp _ _ _).trans (count_tell _ hp _)).trans (S.count_mark _)

theorem count_forgo (hp : Milestone.Silent p) : (S.forgo now).count p = S.count p :=
  (count_record _ hp _ _ _).trans (count_tell _ hp _)

theorem count_rest (hp : Milestone.Silent p) : (S.rest now).count p = S.count p :=
  (count_record _ hp _ _ _).trans (count_tell _ hp _)

theorem count_misjudge (hp : Milestone.Silent p) (e : ScriptError) :
    (S.misjudge now e).count p = S.count p :=
  ((count_record _ hp _ _ _).trans (count_tell _ hp _)).trans (count_tell _ hp _)

theorem count_decline (hp : Milestone.Silent p) : (S.decline now).count p = S.count p :=
  ((count_record _ hp _ _ _).trans (count_tell _ hp _)).trans (count_tell _ hp _)

theorem count_begin (hp : Milestone.Silent p) (ls : List Listener) :
    (S.begin now ls).count p = S.count p + if p .began then 1 else 0 :=
  (count_announce _ hp _ _).trans (S.count_mark .began)

theorem count_judge : S.judge.count p = S.count p + if p .judged then 1 else 0 :=
  S.count_mark .judged

/-! ### Attempts

An attempt begins in a turn and is one; it may end in the turn in which it begins. -/

variable {S} {S' : Scene} {ls : List Listener}

theorem Acts.attempt (h : Acts now S S') :
    S'.count Milestone.isAttempt = S.count Milestone.isAttempt + 1 := by
  cases h with
  | unread e =>
    rw [count_conclude _ Milestone.silent_isAttempt, count_mark]
    rfl
  | acting e => exact S.count_mark .attempted

/-- How a run can have got before its action. -/
inductive Reaches (now : Nat) (S : Scene) : Prop
  | delayed {due : Nat} (hs : S.run.stage = .delayed due) (hd : due ≤ now)
  | judged {e : Nat} (hs : S.run.stage = .judging e) (hr : S.rule.inRefractory now = false)
    (hd : S.rule.definition.executionDelay = 0)

theorem Proceeds.attempt (h : Proceeds now S S') :
    S'.count Milestone.isAttempt = S.count Milestone.isAttempt ∨
      S'.count Milestone.isAttempt = S.count Milestone.isAttempt + 1 ∧
        S.rule.inRefractory now = false ∧ S.rule.definition.executionDelay = 0 := by
  have hq := Milestone.silent_isAttempt
  cases h with
  | rests hr => exact .inl (S.count_rest hq)
  | delays hr hd => exact .inl (S.count_tell hq _)
  | acts hr hd ha => exact .inr ⟨by rw [ha.attempt, S.count_tell hq], hr, hd⟩

theorem Decides.attempt (h : Decides now S S') :
    S'.count Milestone.isAttempt = S.count Milestone.isAttempt ∨
      S'.count Milestone.isAttempt = S.count Milestone.isAttempt + 1 ∧
        S.rule.inRefractory now = false ∧ S.rule.definition.executionDelay = 0 := by
  have hq := Milestone.silent_isAttempt
  cases h with
  | misjudged e => exact .inl (S.count_misjudge hq e)
  | declines => exact .inl (S.count_decline hq)
  | proceeds hp =>
    have ha := hp.attempt
    rw [S.count_tell hq] at ha
    exact ha

theorem Starts.attempt (h : Starts now ls S S') :
    S'.count Milestone.isAttempt = S.count Milestone.isAttempt := by
  have hq := Milestone.silent_isAttempt
  have hb : (S.begin now ls).count Milestone.isAttempt = S.count Milestone.isAttempt :=
    S.count_begin hq ls
  cases h with
  | rests hr => rfl
  | broke hr hv => rw [count_breakOff _ hq, hb]
  | vetoed hr hv => exact hb
  | judges hr hv hj =>
    have hj' := (S.begin now ls).count_judge (p := Milestone.isAttempt)
    cases hj with
    | unread e => rw [count_misjudge _ hq, hj', hb]; rfl
    | judging e => exact hj'.trans hb

theorem Claims.attempt (h : Claims now ls S S') :
    S'.count Milestone.isAttempt = S.count Milestone.isAttempt := by
  cases h with
  | retired h => rfl
  | starts h hs ha => exact ha.attempt
  | busy h hs ha => rfl
  | waits h hs ha => rfl

/-- **A turn attempts the action at most once, and only if the run stood before it.** -/
theorem Turn.attempt (h : Turn now ls S S') :
    S'.count Milestone.isAttempt = S.count Milestone.isAttempt ∨
      S'.count Milestone.isAttempt = S.count Milestone.isAttempt + 1 ∧ Reaches now S := by
  have hq := Milestone.silent_isAttempt
  cases h with
  | paused hs hp => exact .inl rfl
  | rests hs hp hr => exact .inl rfl
  | arrives hs hp hr hd ha => exact .inl ha.attempt
  | fires hs hd ha => exact .inl ha.attempt
  | cancelled hs => exact .inl rfl
  | gains hs hw hc ha => exact .inl ha.attempt
  | leaves hs hr => exact .inl rfl
  | queues hs hw hc hr => exact .inl rfl
  | acts hs hd ha => exact .inr ⟨ha.attempt, .delayed hs hd⟩
  | forgoes hs hr => exact .inl (S.count_forgo hq)
  | broke hs m => exact .inl (S.count_breakOff hq m)
  | decides hs ha => exact ha.attempt.imp id fun ⟨hc, hr, hd⟩ => ⟨hc, .judged hs hr hd⟩
  | concludes hs result =>
    refine .inl ?_
    rw [S.count_conclude hq]
    rfl

/-! ### Ends of attempts -/

/-- An attempt that ends is the last that has, and the run ends with it. -/
theorem conclude_ends (S : Scene) (now : Nat) (result : Except RuleError Json) :
    (S.conclude now result).rule.lastCompleted = some now ∧
      (S.conclude now result).run.isOver = true := by
  cases result <;> exact ⟨rfl, rfl⟩

theorem Acts.conclusion (h : Acts now S S') :
    S'.count Milestone.isConclusion = S.count Milestone.isConclusion ∨
      S'.rule.lastCompleted = some now ∧ S'.run.isOver = true := by
  cases h with
  | unread e => exact .inr (conclude_ends _ _ _)
  | acting e => exact .inl (S.count_mark .attempted)

theorem Decides.conclusion (h : Decides now S S') :
    S'.count Milestone.isConclusion = S.count Milestone.isConclusion ∨
      S'.rule.lastCompleted = some now ∧ S'.run.isOver = true := by
  have hq := Milestone.silent_isConclusion
  cases h with
  | misjudged e => exact .inl (S.count_misjudge hq e)
  | declines => exact .inl (S.count_decline hq)
  | proceeds hp =>
    cases hp with
    | rests hr => exact .inl ((count_rest _ hq).trans (S.count_tell hq _))
    | delays hr hd => exact .inl ((count_tell _ hq _).trans (S.count_tell hq _))
    | acts hr hd ha =>
      exact ha.conclusion.imp (fun h => h.trans ((count_tell _ hq _).trans (S.count_tell hq _))) id

theorem Starts.conclusion (h : Starts now ls S S') :
    S'.count Milestone.isConclusion = S.count Milestone.isConclusion := by
  have hq := Milestone.silent_isConclusion
  have hb : (S.begin now ls).count Milestone.isConclusion = S.count Milestone.isConclusion :=
    S.count_begin hq ls
  cases h with
  | rests hr => rfl
  | broke hr hv => rw [count_breakOff _ hq, hb]
  | vetoed hr hv => exact hb
  | judges hr hv hj =>
    have hj' := (S.begin now ls).count_judge (p := Milestone.isConclusion)
    cases hj with
    | unread e => rw [count_misjudge _ hq, hj', hb]; rfl
    | judging e => exact hj'.trans hb

theorem Claims.conclusion (h : Claims now ls S S') :
    S'.count Milestone.isConclusion = S.count Milestone.isConclusion := by
  cases h with
  | retired h => rfl
  | starts h hs ha => exact ha.conclusion
  | busy h hs ha => rfl
  | waits h hs ha => rfl

/-- **When an attempt ends in a turn, the run was in flight and is over, and the rule rests from
now.** -/
theorem Turn.conclusion (h : Turn now ls S S') :
    S'.count Milestone.isConclusion = S.count Milestone.isConclusion ∨
      (S'.rule.lastCompleted = some now ∧ S'.run.isOver = true) ∧
        S.run.stage.inFlight = true := by
  have hq := Milestone.silent_isConclusion
  cases h with
  | paused hs hp => exact .inl rfl
  | rests hs hp hr => exact .inl rfl
  | arrives hs hp hr hd ha => exact .inl ha.conclusion
  | fires hs hd ha => exact .inl ha.conclusion
  | cancelled hs => exact .inl rfl
  | gains hs hw hc ha => exact .inl ha.conclusion
  | leaves hs hr => exact .inl rfl
  | queues hs hw hc hr => exact .inl rfl
  | acts hs hd ha => exact ha.conclusion.imp id fun h => ⟨h, by rw [hs]; rfl⟩
  | forgoes hs hr => exact .inl (S.count_forgo hq)
  | broke hs m => exact .inl (S.count_breakOff hq m)
  | decides hs ha => exact ha.conclusion.imp id fun h => ⟨h, by rw [hs]; rfl⟩
  | concludes hs result => exact .inr ⟨conclude_ends _ _ _, by rw [hs]; rfl⟩

/-! ### How a run leaves its turn -/

/-- How often the slot is held when the run has ended. -/
def left (S : Scene) : Nat := if S.run.claimed then S.rule.slot.held - 1 else S.rule.slot.held

theorem freed_held (S : Scene) : S.freed.held = S.left := by
  unfold freed left
  split <;> rfl

/-- A run that leaves a turn has ended and given back what it held, or is in flight and holds what it
held. It has its action put off only while the rule does not rest. -/
inductive Leaves (now : Nat) (S S' : Scene) : Prop
  | ends {o : Outcome} (hs : S'.run.stage = .ended (.outcome o)) (ha : S'.run.answered = true)
    (hc : S'.run.claimed = false) (hh : S'.rule.slot.held = S.left)
  | stays (hs : S'.run.stage.inFlight = true) (hc : S'.run.claimed = S.run.claimed)
    (hh : S'.rule.slot.held = S.rule.slot.held)
    (hd : ∀ due, S'.run.stage = .delayed due → S'.rule.inRefractory now = false ∧
      S'.rule.definition.executionDelay ≠ 0 ∧ now < due)

/-- Whatever a run has done in a turn without touching the slot, at its end it gives it back. -/
theorem leaves_finish {X : Scene} (o : Outcome) (hc : X.run.claimed = S.run.claimed)
    (hh : X.rule.slot.held = S.rule.slot.held) : Leaves now S (X.finish o) := by
  refine .ends rfl rfl rfl ?_
  have hX : (X.finish o).rule.slot.held = X.left := X.freed_held
  rw [hX, left, left, hc, hh]

theorem leaves_conclude {X : Scene} (result : Except RuleError Json)
    (hc : X.run.claimed = S.run.claimed) (hh : X.rule.slot.held = S.rule.slot.held) :
    Leaves now S (X.conclude now result) := by
  cases result with
  | ok v => exact leaves_finish _ hc hh
  | error e => exact leaves_finish _ hc hh

theorem Acts.leaves {X : Scene} (h : Acts now X S') (hc : X.run.claimed = S.run.claimed)
    (hh : X.rule.slot.held = S.rule.slot.held) : Leaves now S S' := by
  cases h with
  | unread e => exact leaves_conclude _ hc hh
  | acting e => exact .stays rfl hc hh fun _ hd => by cases hd

theorem Decides.leaves (h : Decides now S S') : Leaves now S S' := by
  cases h with
  | misjudged e => exact leaves_finish _ rfl rfl
  | declines => exact leaves_finish _ rfl rfl
  | proceeds hp =>
    cases hp with
    | rests hr => exact leaves_finish _ rfl rfl
    | delays hr hd =>
      refine .stays rfl rfl rfl fun due hdue => ⟨hr, hd, ?_⟩
      cases hdue
      exact Nat.lt_add_of_pos_right (Nat.pos_of_ne_zero hd)
    | acts hr hd ha => exact ha.leaves rfl rfl

theorem Starts.leaves (h : Starts now ls S S') : Leaves now S S' := by
  cases h with
  | rests hr => exact leaves_finish _ rfl rfl
  | broke hr hv => exact leaves_finish _ rfl rfl
  | vetoed hr hv => exact leaves_finish _ rfl rfl
  | judges hr hv hj =>
    cases hj with
    | unread e => exact leaves_finish _ rfl rfl
    | judging e => exact .stays rfl rfl rfl fun _ hd => by cases hd

/-- What a turn comes to for the slot. -/
inductive Passes (now : Nat) (S S' : Scene) : Prop
  /-- The run was in flight, or ends without having started. -/
  | leaves (hl : Leaves now S S') (hi : S.run.stage.inFlight = true ∨ S'.run.stage.inFlight = false)
  /-- The run claims the slot, and starts. -/
  | claims (hi : S.run.stage.inFlight = false) {slot : Slot Nat}
    (hs : S.rule.slot.claim? = some slot) {X : Scene} (hX : X.rule.slot = slot)
    (hc : X.run.claimed = true) (hl : Leaves now X S')
  /-- The run waits for the slot, or is cancelled before it could claim it. -/
  | waits (hi : S.run.stage.inFlight = false) (hi' : S'.run.stage.inFlight = false)
    (hc : S'.run.claimed = S.run.claimed) (hh : S'.rule.slot.held = S.rule.slot.held)

/-- A run that claims the slot may have been admitted before, or have had its deferral taken down. -/
theorem Claims.passes {X : Scene} (h : Claims now ls X S') (hi : S.run.stage.inFlight = false)
    (hc : X.run.claimed = S.run.claimed) (hs : X.rule.slot = S.rule.slot) : Passes now S S' := by
  have hh : X.rule.slot.held = S.rule.slot.held := by rw [hs]
  cases h with
  | retired h => exact .leaves (leaves_finish _ hc hh) (.inr rfl)
  | starts h hslot ha => exact .claims hi (hs ▸ hslot) (X := X.hold _) rfl rfl ha.leaves
  | busy h hslot ha => exact .leaves (leaves_finish _ hc hh) (.inr rfl)
  | waits h hslot ha => exact .waits hi rfl hc hh

theorem Turn.passes (h : Turn now ls S S') : Passes now S S' := by
  cases h with
  | paused hs hp => exact .leaves (leaves_finish _ rfl rfl) (.inr rfl)
  | rests hs hp hr => exact .leaves (leaves_finish _ rfl rfl) (.inr rfl)
  | arrives hs hp hr hd ha => exact ha.passes (by rw [hs]; rfl) rfl rfl
  | fires hs hd ha => exact ha.passes (by rw [hs]; rfl) rfl rfl
  | cancelled hs => exact .waits (by rw [hs]; rfl) rfl rfl rfl
  | gains hs hw hc ha => exact .claims (by rw [hs]; rfl) hc (X := S.hold _) rfl rfl ha.leaves
  | leaves hs hr => exact .leaves (leaves_finish _ rfl rfl) (.inr rfl)
  | queues hs hw hc hr => exact .waits (by rw [hs]; rfl) (by simp only [mapSlot, hs]; rfl) rfl rfl
  | acts hs hd ha => exact .leaves (ha.leaves rfl rfl) (.inl (by rw [hs]; rfl))
  | forgoes hs hr => exact .leaves (leaves_finish _ rfl rfl) (.inr rfl)
  | broke hs m => exact .leaves (leaves_finish _ rfl rfl) (.inr rfl)
  | decides hs ha => exact .leaves ha.leaves (.inl (by rw [hs]; rfl))
  | concludes hs result => exact .leaves (leaves_conclude result rfl rfl) (.inl (by rw [hs]; rfl))

theorem Leaves.delayed (h : Leaves now S S') {due : Nat} (hs' : S'.run.stage = .delayed due) :
    S'.rule.inRefractory now = false ∧ S'.rule.definition.executionDelay ≠ 0 ∧ now < due := by
  cases h with
  | ends hs ha hc hh => rw [hs] at hs'; cases hs'
  | stays hs hc hh hd => exact hd due hs'

/-- **A run comes to have its action put off only while the rule does not rest**, and then until later. -/
theorem Turn.delayed (h : Turn now ls S S') {due : Nat} (hs' : S'.run.stage = .delayed due) :
    S'.rule.inRefractory now = false ∧ S'.rule.definition.executionDelay ≠ 0 ∧ now < due := by
  cases h.passes with
  | leaves hl hi => exact hl.delayed hs'
  | claims hi hs hX hc hl => exact hl.delayed hs'
  | waits hi hi' hc hh => rw [hs'] at hi'; cases hi'

end Scene

/-! ## What a step tells of its run -/

namespace Core.Step

variable {C C' : Core} {r : Nat}

/-- **A step in which a run attempts its action is a turn of that run, and the run stood before its
action.** -/
theorem attempt (h : C.Step C') (ha : (C.runAt r).attempts < (C'.runAt r).attempts) :
    r < C.runs.length ∧ (C.scene r).Reaches C.now ∧
      ∃ S, Scene.Turn C.now C.listeners (C.scene r) S ∧ C' = C.put S ∧ C'.runAt r = S.run := by
  have hlog : (C'.runAt r).log ≠ (C.runAt r).log := by
    intro he
    rw [Run.attempts, Run.attempts, he] at ha
    exact Nat.lt_irrefl _ ha
  obtain ⟨hr, S, ht, hc, hx⟩ := h.turn_of_log hlog
  refine ⟨hr, ?_, S, ht, hc, hx⟩
  -- the step is a turn that adds an attempt, so it is not one of those that add none
  rcases ht.attempt with hsame | ⟨-, hreach⟩
  · rw [hx] at ha
    exact absurd ha (Nat.not_lt.mpr (Nat.le_of_eq hsame))
  · exact hreach

/-- A step in which an attempt ends is a turn of its run, which was in flight and is over. -/
theorem conclusion (h : C.Step C') (hc : (C.runAt r).conclusions < (C'.runAt r).conclusions) :
    r < C.runs.length ∧ (C.runAt r).stage.inFlight = true ∧
      ∃ S, Scene.Turn C.now C.listeners (C.scene r) S ∧ C' = C.put S ∧ C'.runAt r = S.run ∧
        S.rule.lastCompleted = some C.now ∧ S.run.isOver = true := by
  have hlog : (C'.runAt r).log ≠ (C.runAt r).log := by
    intro he
    rw [Run.conclusions, Run.conclusions, he] at hc
    exact Nat.lt_irrefl _ hc
  obtain ⟨hr, S, ht, hput, hx⟩ := h.turn_of_log hlog
  rcases ht.conclusion with hsame | ⟨⟨hl, ho⟩, hi⟩
  · rw [hx] at hc
    exact absurd hc (Nat.not_lt.mpr (Nat.le_of_eq hsame))
  · exact ⟨hr, hi, S, ht, hput, hx, hl, ho⟩

/-- A run whose action is put off had it put off before, or has just seen that the rule does not
rest. -/
theorem delayed (h : C.Step C') (hv : C.Valid) (hr : r < C'.runs.length) {due : Nat}
    (hd : (C'.runAt r).stage = .delayed due) :
    r < C.runs.length ∧
      ((C.runAt r).stage = .delayed due ∨
        (C'.ruleAt (C'.runAt r).rule).inRefractory C'.now = false ∧
          (C'.ruleAt (C'.runAt r).rule).definition.executionDelay ≠ 0 ∧ C'.now < due) := by
  by_cases hr' : r < C.runs.length
  · refine ⟨hr', ?_⟩
    cases h.run hr' with
    | same hx => exact .inl (hx ▸ hd)
    | cancelled hx =>
      -- cancelling a deferral leaves a run alone whose action is put off
      rw [hx] at hd
      unfold Run.cancelDeferral at hd
      split at hd
      · cases hd
      · exact .inl hd
    | @turned S ht hc =>
      have hruleS : S.run.rule < C.instances.length := by
        rw [ht.follows.rule]
        exact hv.run r hr'
      have hnum : S.number = r := ht.follows.number
      have hx : C'.runAt r = S.run := by rw [hc, runAt_put_self C hnum hr']
      have hi : C'.ruleAt S.run.rule = S.rule := by rw [hc, ruleAt_put C hruleS, if_pos rfl]
      rw [hx] at hd ⊢
      rw [hi, hc]
      exact .inr (ht.delayed hd)
    | deferred _ hx => rw [hx] at hd; cases hd
    | abandoned _ _ hx => rw [hx] at hd; cases hd
  · obtain ⟨_, _, _, _, hx, -⟩ := h.run_new (Nat.le_of_not_lt hr') hr
    rw [hx] at hd
    cases hd

end Core.Step

end ReactiveRules
