import ReactiveRules.Proofs.Engine.Runs

/-!
# `Proofs/Engine/Accounts.lean` — what the log of a run says

A run that starts asks its listeners, judges its condition and attempts its action, and each way to
its end tells all of its listeners the same and leaves one record. **`Run.Accounts` says what the log
of a run is at each stage**, and every turn keeps it (`Scene.Turn.accounts`).

What the listeners hear after they were asked is one of the words of `CallbackWord`.
-/

set_option autoImplicit false

namespace ReactiveRules

/-- The words that the listeners of a run can hear after they were asked; the outcome of the run, and
what its record says of the condition, the action and the error. -/
inductive CallbackWord (id : String) :
    List RunSignal → Outcome → Bool → Bool → Option RuleError → Prop
  | broke (m : String) : CallbackWord id [.failure (.panicked m)] (.failed (.panicked m)) false false
    (some (.panicked m))
  | misjudged (e : ScriptError) : CallbackWord id [.evaluationError e, .success false]
    (.completed false false) false false (some (.script e))
  | declined : CallbackWord id [.afterEvaluate false, .success false] (.completed false false) false
    false none
  | rested : CallbackWord id [.afterEvaluate true, .success true] (.suppressed .refractory) true false
    none
  | forwent : CallbackWord id [.afterEvaluate true, .beforeExecute, .failure (.retired id)]
    (.suppressed .retired) true false (some (.retired id))
  | failed (e : RuleError) : CallbackWord id [.afterEvaluate true, .beforeExecute, .failure e]
    (.failed e) true true (some e)
  | executed (v : Json) : CallbackWord id
    [.afterEvaluate true, .beforeExecute, .afterExecute v, .success true] (.completed true true) true
    true none

/-! ## What the log of a run says -/

structure Start where
  trigger : Trigger
  audience : List Listener
  time : Nat

/-- What a run keeps from its start on. -/
def Run.start (x : Run) : Start := ⟨x.trigger, x.audience, x.started⟩

@[simp] theorem Run.start_audience (x : Run) : x.start.audience = x.audience := rfl

namespace Start

def told (F : Start) (s : RunSignal) : List Milestone := F.audience.map (.heard · s)

/-- The listeners have been asked, up to the first that objects. -/
def opening (F : Start) : List Milestone :=
  .began :: (asked F.trigger F.audience).map (.heard · .beforeEvaluate)

/-- The condition is judged. -/
def judging (F : Start) : List Milestone := F.opening ++ [.judged]

/-- The condition holds, and the action is next. -/
def standing (F : Start) : List Milestone :=
  F.judging ++ F.told (.afterEvaluate true) ++ F.told .beforeExecute

/-- The action is attempted. -/
def acting (F : Start) : List Milestone := F.standing ++ [.attempted]

def record (F : Start) (d : Definition) (now : Nat) (condition executed : Bool)
    (error : Option RuleError) : RunRecord :=
  { rule := d.id, label := d.label, aspect := F.trigger.aspect
    condition, executed, success := error.isNone, error := error.map RuleError.message
    duration := UInt64.ofNat (now - F.time) }

@[simp] theorem record_start (x : Run) (d : Definition) (now : Nat) (condition executed : Bool)
    (error : Option RuleError) :
    x.start.record d now condition executed error = x.recordAt d now condition executed error := rfl

def Unopposed (F : Start) : Prop := verdict F.trigger F.audience = .ok true

/-- A word is told; an attempt stands between the announcement of the action and what follows. -/
def course (F : Start) (w : List RunSignal) (executed : Bool) : List Milestone :=
  if executed then (w.take 2).flatMap F.told ++ [.attempted, .concluded] ++ (w.drop 2).flatMap F.told
  else w.flatMap F.told

/-- The logs of a run that has ended with an outcome. -/
inductive Closes (F : Start) (d : Definition) : List Milestone → Outcome → Prop
  | dropped (why : Suppression) : Closes F d [] (.suppressed why)
  | vetoed (hv : verdict F.trigger F.audience = .ok false) : Closes F d F.opening .vetoed
  | broke {m : String} (now : Nat) (hv : verdict F.trigger F.audience = .error m) :
    Closes F d (F.opening ++ F.told (.failure (.panicked m)) ++
      [.recorded (F.record d now false false (some (.panicked m)))]) (.failed (.panicked m))
  | ended {w : List RunSignal} {o : Outcome} {condition executed : Bool} {error : Option RuleError}
    (now : Nat) (hv : F.Unopposed) (hw : CallbackWord d.id w o condition executed error) :
    Closes F d (F.judging ++ F.course w executed ++
      [.recorded (F.record d now condition executed error)]) o

/-- What the log of a run is, by where the run stands. -/
def Accounts (F : Start) (d : Definition) (log : List Milestone) : Stage → Prop
  | .arriving | .deferred .. | .waiting | .ended .cancelled => log = []
  | .judging _ => F.Unopposed ∧ log = F.judging
  | .delayed _ => F.Unopposed ∧ log = F.standing
  | .acting .. => F.Unopposed ∧ log = F.acting
  | .ended .abandoned => log = [] ∨ F.Unopposed ∧ (log = F.standing ∨ log = F.acting)
  | .ended (.outcome o) => F.Closes d log o

end Start

/-- The log of the run is what it is to be where the run stands. -/
def Run.Accounts (d : Definition) (x : Run) : Prop := x.start.Accounts d x.log x.stage

/-! ## Turns

Each operation adds to the log at its end, and leaves what the run keeps. -/

/-- What a run keeps, what its rule keeps, and the log of the run. -/
structure Scene.Reads (F : Start) (d : Definition) (log : List Milestone) (S : Scene) : Prop where
  start : S.run.start = F
  definition : S.rule.definition = d
  log : S.run.log = log

namespace Scene

variable {F : Start} {d : Definition} {log : List Milestone} {now : Nat} {S S' : Scene}
  {ls : List Listener}

namespace Reads

theorem mark (h : S.Reads F d log) (m : Milestone) : (S.mark m).Reads F d (log ++ [m]) :=
  ⟨h.start, h.definition, congrArg (· ++ [m]) h.log⟩

theorem setStage (h : S.Reads F d log) (s : Stage) : (S.setStage s).Reads F d log :=
  ⟨h.start, h.definition, h.log⟩

theorem mapRule (h : S.Reads F d log) {f : Rule → Rule}
    (hf : (f S.rule.toRule).definition = S.rule.definition) : (S.mapRule f).Reads F d log :=
  ⟨h.start, hf.trans h.definition, h.log⟩

theorem mapSlot (h : S.Reads F d log) (f : Slot Nat → Slot Nat) : (S.mapSlot f).Reads F d log :=
  ⟨h.start, h.definition, h.log⟩

theorem tell (h : S.Reads F d log) (s : RunSignal) : (S.tell s).Reads F d (log ++ F.told s) := by
  refine ⟨h.start, h.definition, ?_⟩
  have ha : S.run.audience = F.audience := congrArg Start.audience h.start
  show S.run.log ++ S.run.audience.map (.heard · s) = _
  rw [h.log, ha]
  rfl

theorem record (h : S.Reads F d log) (now : Nat) (condition executed : Bool) (error : Option RuleError) :
    (S.record now condition executed error).Reads F d
      (log ++ [.recorded (F.record d now condition executed error)]) := by
  refine ⟨h.start, h.definition, ?_⟩
  have hr : S.run.recordAt S.rule.definition now condition executed error
      = S.run.start.record S.rule.definition now condition executed error := rfl
  show S.run.log ++ [.recorded (S.run.recordAt S.rule.definition now condition executed error)] = _
  rw [hr, h.log, h.start, h.definition]

theorem finish (h : S.Reads F d log) (o : Outcome) : (S.finish o).Reads F d log :=
  ⟨h.start, h.definition, h.log⟩

theorem hold (h : S.Reads F d log) (slot : Slot Nat) : (S.hold slot).Reads F d log :=
  ⟨h.start, h.definition, h.log⟩

theorem accept (h : S.Reads F d log) : (S.accept now).Reads F d log :=
  ⟨h.start, h.definition, h.log⟩

end Reads

theorem attempted_definition (now : Nat) (success : Bool) (r : Rule) :
    (attempted now success r).definition = r.definition := by
  unfold attempted Rule.markCompleted
  split <;> rfl

theorem Reads.accounts (h : S.Reads F d log) (ha : F.Accounts d log S.run.stage) :
    S.run.Accounts d := by
  unfold Run.Accounts
  rw [h.start, h.log]
  exact ha

/-- A run that has ended accounts for itself if its log is that of a word. -/
theorem Reads.ends (h : S.Reads F d log) (now : Nat) {w : List RunSignal} {o : Outcome}
    {condition executed : Bool} {error : Option RuleError} (hs : S.run.stage = .ended (.outcome o))
    (hw : CallbackWord d.id w o condition executed error) (hv : F.Unopposed)
    (hl : log = F.judging ++ F.course w executed ++
      [.recorded (F.record d now condition executed error)]) : S.run.Accounts d := by
  apply h.accounts
  rw [hs, hl]
  exact .ended now hv hw

theorem Reads.breakOff (h : S.Reads F d log) (m : String) :
    (S.breakOff now m).Reads F d (log ++ F.told (.failure (.panicked m)) ++
      [.recorded (F.record d now false false (some (.panicked m)))]) :=
  (((h.mapRule rfl).tell _).record _ _ _ _).finish _

theorem Reads.judge (h : S.Reads F d log) : S.judge.Reads F d (log ++ [.judged]) :=
  (h.mark _).mapRule rfl

theorem Reads.misjudge (h : S.Reads F d log) (e : ScriptError) :
    (S.misjudge now e).Reads F d (log ++ F.told (.evaluationError e) ++ F.told (.success false) ++
      [.recorded (F.record d now false false (some (.script e)))]) :=
  (((h.tell _).tell _).record _ _ _ _).finish _

theorem Reads.decline (h : S.Reads F d log) :
    (S.decline now).Reads F d (log ++ F.told (.afterEvaluate false) ++ F.told (.success false) ++
      [.recorded (F.record d now false false none)]) :=
  (((h.tell _).tell _).record _ _ _ _).finish _

theorem Reads.rest (h : S.Reads F d log) :
    (S.rest now).Reads F d (log ++ F.told (.success true) ++
      [.recorded (F.record d now true false none)]) :=
  ((h.tell _).record _ _ _ _).finish _

theorem Reads.forgo (h : S.Reads F d log) :
    (S.forgo now).Reads F d (log ++ F.told (.failure (.retired d.id)) ++
      [.recorded (F.record d now true false (some (.retired d.id)))]) := by
  have hid : S.rule.id = d.id := congrArg Definition.id h.definition
  have ht := (((h.tell (.failure (.retired d.id))).record now true false
    (some (.retired d.id))).finish (.suppressed .retired))
  rw [← hid] at ht ⊢
  exact ht

theorem Reads.begin (h : S.Reads F d []) (now : Nat) (ls : List Listener) :
    (S.begin now ls).Reads ⟨F.trigger, ls, now⟩ d (Start.opening ⟨F.trigger, ls, now⟩) := by
  have ht : S.run.trigger = F.trigger := congrArg Start.trigger h.start
  refine ⟨?_, h.definition, ?_⟩
  · show (⟨S.run.trigger, ls, now⟩ : Start) = _
    rw [ht]
  · show S.run.log ++ [.began] ++ (asked S.run.trigger ls).map (.heard · .beforeEvaluate) = _
    rw [h.log, ht]
    rfl

/-! ### Turns -/

theorem conclude_accounts (h : S.Reads F d F.acting) (hv : F.Unopposed)
    (result : Except RuleError Json) : (S.conclude now result).run.Accounts d := by
  have hm := h.mark .concluded
  cases result with
  | ok v =>
    have hX := ((((hm.mapRule (attempted_definition now true _)).tell (.afterExecute v)).tell
      (.success true)).record now true true none).finish (.completed true true)
    exact hX.ends now rfl (.executed v) hv
      (by simp [Start.acting, Start.standing, Start.course])
  | error e =>
    have hX := (((hm.mapRule (attempted_definition now false _)).tell (.failure e)).record
      now true true (some e)).finish (.failed e)
    exact hX.ends now rfl (.failed e) hv
      (by simp [Start.acting, Start.standing, Start.course])

theorem Acts.accounts (ha : Acts now S S') (h : S.Reads F d F.standing) (hv : F.Unopposed) :
    S'.run.Accounts d := by
  have hm := h.mark .attempted
  cases ha with
  | unread e => exact conclude_accounts hm hv _
  | acting e => exact (hm.setStage _).accounts ⟨hv, rfl⟩

theorem Decides.accounts (hd : Decides now S S') (h : S.Reads F d F.judging)
    (hv : F.Unopposed) : S'.run.Accounts d := by
  cases hd with
  | misjudged e => exact (h.misjudge e).ends now rfl (.misjudged e) hv (by simp [Start.course])
  | declines => exact h.decline.ends now rfl .declined hv (by simp [Start.course])
  | proceeds hp =>
    have ht := h.tell (.afterEvaluate true)
    cases hp with
    | rests hr => exact ht.rest.ends now rfl .rested hv (by simp [Start.course])
    | delays hr hd => exact ((ht.tell .beforeExecute).setStage _).accounts ⟨hv, rfl⟩
    | acts hr hd ha => exact ha.accounts (ht.tell .beforeExecute) hv

theorem Starts.accounts (hs : Starts now ls S S') (h : S.Reads F d []) : S'.run.Accounts d := by
  have ht : S.run.trigger = F.trigger := congrArg Start.trigger h.start
  have hb := h.begin now ls
  cases hs with
  | rests hr => exact (h.finish _).accounts (.dropped .refractory)
  | broke hr hv => exact (hb.breakOff _).accounts (.broke now (ht ▸ hv))
  | vetoed hr hv => exact (hb.finish _).accounts (.vetoed (ht ▸ hv))
  | judges hr hv hj =>
    have hv' : Start.Unopposed ⟨F.trigger, ls, now⟩ := ht ▸ hv
    cases hj with
    | unread e =>
      exact (hb.judge.misjudge e).ends now rfl (.misjudged e) hv'
        (by simp [Start.judging, Start.course])
    | judging e => exact (hb.judge.setStage _).accounts ⟨hv', rfl⟩

theorem Claims.accounts (hc : Claims now ls S S') (h : S.Reads F d []) : S'.run.Accounts d := by
  cases hc with
  | retired hr => exact (h.finish _).accounts (.dropped .retired)
  | starts hr hs ha => exact ha.accounts (h.hold _)
  | busy hr hs ha => exact (h.finish _).accounts (.dropped .busy)
  | waits hr hs ha => exact ((h.mapSlot _).setStage _).accounts rfl

/-- **Every turn accounts for what it does.** -/
theorem Turn.accounts (ht : Turn now ls S S') (ha : S.run.Accounts S.rule.definition) :
    S'.run.Accounts S.rule.definition := by
  have h : S.Reads S.run.start S.rule.definition S.run.log := ⟨rfl, rfl, rfl⟩
  unfold Run.Accounts at ha
  -- where the run stood says what its log was, and the turn adds to that
  cases ht with
  | paused hs hp =>
    rw [hs] at ha
    exact (h.finish _).accounts (ha ▸ .dropped .paused)
  | rests hs hp hr =>
    rw [hs] at ha
    exact (h.finish _).accounts (ha ▸ .dropped .refractory)
  | arrives hs hp hr hd hc =>
    rw [hs] at ha
    exact hc.accounts (ha ▸ h.accept)
  | @fires g _ _ hs hd S' hc =>
    rw [hs] at ha
    refine hc.accounts (ha ▸ h.mapRule ?_)
    rw [Rule.finishPending_eq]
  | cancelled hs =>
    rw [hs] at ha
    exact (h.setStage _).accounts ha
  | gains hs hw hc hst =>
    rw [hs] at ha
    exact hst.accounts (ha ▸ h.hold _)
  | leaves hs hr =>
    rw [hs] at ha
    exact ((h.mapSlot _).finish _).accounts (ha ▸ .dropped .retired)
  | queues hs hw hc hr => exact (h.mapSlot _).accounts ha
  | acts hs hd hc =>
    rw [hs] at ha
    exact hc.accounts (ha.2 ▸ h) ha.1
  | forgoes hs hr =>
    rw [hs] at ha
    rw [ha.2] at h
    exact h.forgo.ends now rfl .forwent ha.1 (by simp [Start.standing, Start.course])
  | broke hs m =>
    rw [hs] at ha
    rw [ha.2] at h
    exact (h.breakOff m).ends now rfl (.broke m) ha.1 (by simp [Start.course])
  | decides hs hc =>
    rw [hs] at ha
    exact hc.accounts (ha.2 ▸ h) ha.1
  | concludes hs result =>
    rw [hs] at ha
    exact conclude_accounts (ha.2 ▸ h) ha.1 result
end Scene

/-! ## Runs of an engine -/

theorem Run.Accounts.cancelDeferral {d : Definition} {x : Run} (h : x.Accounts d) :
    x.cancelDeferral.Accounts d := by
  unfold Run.cancelDeferral
  split
  · next hs =>
    unfold Run.Accounts at h
    rw [hs] at h
    exact h
  · exact h

def Core.Accounts (C : Core) : Prop :=
  ∀ r, r < C.runs.length → (C.runAt r).Accounts (C.ruleAt (C.runAt r).rule).definition

theorem Core.Accounts.step {C C' : Core} (h : C.Accounts) (hv : C.Valid) (hs : C.Step C') :
    C'.Accounts := by
  have hf := hs.follows hv
  intro r hr'
  by_cases hr : r < C.runs.length
  · have ha := h r hr
    have hdef : (C'.ruleAt (C'.runAt r).rule).definition
        = (C.ruleAt (C.runAt r).rule).definition := by
      rw [(hf.run r hr).rule, (hf.rule _ (hv.run r hr)).definition]
    rw [hdef]
    cases hs.run hr with
    | same hx => exact hx ▸ ha
    | cancelled hx => exact hx ▸ ha.cancelDeferral
    | @turned S ht hc =>
      have hnum : S.number = r := ht.follows.number
      rw [hc, runAt_put_self C hnum hr]
      exact ht.accounts ha
    | deferred hd hx =>
      unfold Run.Accounts at ha
      rw [show (C.runAt r).stage = .arriving from hd.stage] at ha
      rw [hx]
      exact ha
    | abandoned _ hst hx =>
      rw [hx]
      show (C.runAt r).log = [] ∨ _
      unfold Run.Accounts at ha
      cases hstage : (C.runAt r).stage with
      | arriving =>
        rw [hstage] at ha
        exact .inl ha
      | waiting =>
        rw [hstage] at ha
        exact .inl ha
      | delayed due =>
        rw [hstage] at ha
        exact .inr ⟨ha.1, .inl ha.2⟩
      | acting e dl =>
        rw [hstage] at ha
        exact .inr ⟨ha.1, .inr ha.2⟩
      | deferred g due c => rw [hstage] at hst; cases hst
      | judging e => rw [hstage] at hst; cases hst
      | ended e => rw [hstage] at hst; cases hst
  · obtain ⟨n, t, a, c, hx, -⟩ := hs.run_new (Nat.le_of_not_lt hr) hr'
    rw [hx]
    exact rfl

theorem Engine.Reachable.accounts {E : Engine} (h : E.Reachable) : E.core.Accounts := by
  refine h.induction ?_ fun _ _ hv ha hs => ha.step hv hs
  rintro E₀ ⟨_, _, _, _, _, _, rfl⟩ r hr
  cases hr

/-! ## Runs that have started -/

def Milestone.isBeginning : Milestone → Bool
  | .began => true
  | _ => false

/-- Has the run started? -/
def Run.hasBegun (x : Run) : Bool := x.log.any Milestone.isBeginning

theorem Core.hasBegun_lt {C : Core} {r : Nat} (hb : (C.runAt r).hasBegun = true) :
    r < C.runs.length := by
  by_contra hr
  rw [runAt_of_le (Nat.le_of_not_lt hr)] at hb
  cases hb

namespace Run.Accounts

variable {d : Definition} {x : Run}

/-- Nothing has happened in a run that has neither started nor ended. -/
theorem log_nil (h : x.Accounts d) (ho : x.isOver = false) (hi : x.stage.inFlight = false) :
    x.log = [] := by
  unfold Accounts at h
  unfold Run.isOver at ho
  cases hs : x.stage with
  | arriving => rw [hs] at h; exact h
  | deferred g due c => rw [hs] at h; exact h
  | waiting => rw [hs] at h; exact h
  | ended e => rw [hs] at ho; cases ho
  | _ => rw [hs] at hi; cases hi

/-- A run that is not over has started exactly if it is in flight. -/
theorem hasBegun (h : x.Accounts d) (ho : x.isOver = false) :
    x.hasBegun = x.stage.inFlight := by
  cases hi : x.stage.inFlight with
  | false => rw [Run.hasBegun, h.log_nil ho hi]; rfl
  | true =>
    unfold Accounts at h
    cases hs : x.stage with
    | judging e => rw [hs] at h; rw [Run.hasBegun, h.2]; rfl
    | delayed due => rw [hs] at h; rw [Run.hasBegun, h.2]; rfl
    | acting e dl => rw [hs] at h; rw [Run.hasBegun, h.2]; rfl
    | _ => rw [hs] at hi; cases hi

/-- The start of a run is the first thing that happens in it. -/
theorem log_nil_or_hasBegun (h : x.Accounts d) : x.log = [] ∨ x.hasBegun = true := by
  cases ho : x.isOver with
  | false =>
    cases hi : x.stage.inFlight with
    | false => exact .inl (h.log_nil ho hi)
    | true => exact .inr ((h.hasBegun ho).trans hi)
  | true =>
    unfold Run.isOver at ho
    unfold Accounts at h
    split at ho
    · next e hs =>
      rw [hs] at h
      cases e with
      | cancelled => exact .inl h
      | abandoned =>
        rcases h with hl | ⟨-, hl | hl⟩
        · exact .inl hl
        · exact .inr (by rw [Run.hasBegun, hl]; rfl)
        · exact .inr (by rw [Run.hasBegun, hl]; rfl)
      | outcome o =>
        generalize hl : x.log = log at h
        cases h with
        | dropped why => exact .inl rfl
        | _ => exact .inr (by rw [Run.hasBegun, hl]; rfl)
    · cases ho

end Run.Accounts

end ReactiveRules
