import ReactiveRules.Proofs.Engine.Accounts

/-!
# `Proofs/Engine/Callbacks.lean` — what the listeners of a run hear

The log of a run tells who heard what and which record was left. **`Run.Conduct` says how a run
conducts itself that has started**: whichever way it ends, all of its listeners hear the same word,
which ends with one signal of success or failure, and one record is left, unless a listener has
forbidden the run. What the log says is what is reported and kept (`Core.Step.publishes`); which records
a history has in the end is said in `Proofs/Engine/Archive.lean`.
-/

set_option autoImplicit false

namespace ReactiveRules

/-! ## Who is told -/

namespace Scene

variable {now : Nat} {S S' : Scene} {ls : List Listener}

theorem conclude_audience (S : Scene) (now : Nat) (result : Except RuleError Json) :
    (S.conclude now result).run.audience = S.run.audience := by
  cases result <;> rfl

theorem Acts.audience (h : Acts now S S') : S'.run.audience = S.run.audience := by
  cases h with
  | unread e => exact conclude_audience _ _ _
  | acting e => rfl

theorem Decides.audience (h : Decides now S S') : S'.run.audience = S.run.audience := by
  cases h with
  | misjudged e => rfl
  | declines => rfl
  | proceeds hp =>
    cases hp with
    | rests hr => rfl
    | delays hr hd => rfl
    | acts hr hd ha => exact ha.audience

theorem Starts.audience (h : Starts now ls S S') :
    S'.run.audience = ls ∨ S'.run.log = S.run.log := by
  cases h with
  | rests hr => exact .inr rfl
  | broke hr hv => exact .inl rfl
  | vetoed hr hv => exact .inl rfl
  | judges hr hv hj =>
    cases hj with
    | unread e => exact .inl rfl
    | judging e => exact .inl rfl

theorem Claims.audience (h : Claims now ls S S') :
    S'.run.audience = ls ∨ S'.run.log = S.run.log := by
  cases h with
  | retired h => exact .inr rfl
  | starts h hs ha => exact ha.audience
  | busy h hs ha => exact .inr rfl
  | waits h hs ha => exact .inr rfl

/-- **The listeners of a run are those there are when it starts.** -/
theorem Turn.audience (h : Turn now ls S S') :
    (S.run.stage.inFlight = true ∧ S'.run.audience = S.run.audience) ∨
      (S.run.stage.inFlight = false ∧ (S'.run.audience = ls ∨ S'.run.log = S.run.log)) := by
  cases h with
  | paused hs hp => exact .inr ⟨by rw [hs]; rfl, .inr rfl⟩
  | rests hs hp hr => exact .inr ⟨by rw [hs]; rfl, .inr rfl⟩
  | arrives hs hp hr hd ha => exact .inr ⟨by rw [hs]; rfl, ha.audience⟩
  | fires hs hd ha => exact .inr ⟨by rw [hs]; rfl, ha.audience⟩
  | cancelled hs => exact .inr ⟨by rw [hs]; rfl, .inr rfl⟩
  | gains hs hw hc ha => exact .inr ⟨by rw [hs]; rfl, ha.audience⟩
  | leaves hs hr => exact .inr ⟨by rw [hs]; rfl, .inr rfl⟩
  | queues hs hw hc hr => exact .inr ⟨by rw [hs]; rfl, .inr rfl⟩
  | acts hs hd ha => exact .inl ⟨by rw [hs]; rfl, ha.audience⟩
  | forgoes hs hr => exact .inl ⟨by rw [hs]; rfl, rfl⟩
  | broke hs m => exact .inl ⟨by rw [hs]; rfl, rfl⟩
  | decides hs ha => exact .inl ⟨by rw [hs]; rfl, ha.audience⟩
  | concludes hs result => exact .inl ⟨by rw [hs]; rfl, conclude_audience _ _ _⟩

end Scene

/-! ## What is told and recorded -/

namespace Milestone

/-- Who was told what. -/
def callback? : Milestone → Option (Listener × RunSignal)
  | .heard l s => some (l, s)
  | _ => none

def isJudgement : Milestone → Bool
  | .judged => true
  | _ => false

end Milestone

namespace Run

/-- Who was told what in the run, in order. -/
def callbacks (x : Run) : List (Listener × RunSignal) := x.log.filterMap Milestone.callback?

def records (x : Run) : List RunRecord := x.log.filterMap Milestone.record?

def judgements (x : Run) : Nat := x.log.countP Milestone.isJudgement

end Run

/-- A listener is the first to object, and says so much. -/
structure Run.Stopped (x : Run) (pre : List Listener) (l : Listener)
    (answer : Except String Bool) : Prop where
  audience : pre ++ [l] <+: x.audience
  before : ∀ p ∈ pre, p.objection? x.trigger = none
  objects : l.objection? x.trigger = some answer

/-- How a run that has started conducts itself. -/
inductive Run.Conduct (d : Definition) (x : Run) : Prop
  | goesOn (hs : x.stage.inFlight = true)
  | abandoned (hs : x.stage = .ended .abandoned)
  /-- A listener has forbidden it, and nothing else has happened. -/
  | forbidden {pre : List Listener} {l : Listener} (hl : x.Stopped pre l (.ok false))
    (hs : x.stage = .ended (.outcome .vetoed))
    (hc : x.callbacks = (pre ++ [l]).map (·, .beforeEvaluate)) (hr : x.records = [])
    (hj : x.judgements = 0) (ha : x.attempts = 0)
  /-- A listener has broken off when it was asked; all hear of the failure. -/
  | broken {pre : List Listener} {l : Listener} {m : String} (now : Nat)
    (hl : x.Stopped pre l (.error m)) (hs : x.stage = .ended (.outcome (.failed (.panicked m))))
    (hc : x.callbacks = (pre ++ [l]).map (·, .beforeEvaluate) ++
      x.audience.map (·, .failure (.panicked m)))
    (hr : x.records = [x.recordAt d now false false (some (.panicked m))])
    (hj : x.judgements = 0) (ha : x.attempts = 0)
  /-- Nobody has objected; all hear the same word. -/
  | ended {w : List RunSignal} {o : Outcome} {condition executed : Bool} {error : Option RuleError}
    (now : Nat) (hl : ∀ l ∈ x.audience, l.objection? x.trigger = none)
    (hw : CallbackWord d.id w o condition executed error) (hs : x.stage = .ended (.outcome o))
    (hc : x.callbacks = x.audience.map (·, .beforeEvaluate) ++
      w.flatMap fun s => x.audience.map (·, s))
    (hr : x.records = [x.recordAt d now condition executed error])
    (hj : x.judgements = 1) (ha : x.attempts = if executed then 1 else 0)

/-! ### Reading a log -/

theorem Milestone.silent_isJudgement : Silent isJudgement := ⟨fun _ _ => rfl, fun _ => rfl⟩

namespace Start

variable {p : Milestone → Bool} (F : Start)

theorem callbacks_told (s : RunSignal) :
    (F.told s).filterMap Milestone.callback? = F.audience.map (·, s) := by
  rw [told, List.filterMap_map, ← List.filterMap_eq_map]
  rfl

theorem records_told (s : RunSignal) : (F.told s).filterMap Milestone.record? = [] := by
  simp [told, Milestone.record?]

theorem countP_told (hp : Milestone.Silent p) (s : RunSignal) : (F.told s).countP p = 0 := by
  simp [told, List.countP_eq_zero, hp.heard]

theorem callbacks_opening : F.opening.filterMap Milestone.callback?
    = (asked F.trigger F.audience).map (·, .beforeEvaluate) := by
  rw [opening, List.filterMap_cons, List.filterMap_map, ← List.filterMap_eq_map]
  rfl

theorem records_opening : F.opening.filterMap Milestone.record? = [] := by
  simp [opening, List.filterMap_cons, Milestone.record?]

theorem countP_opening (hp : Milestone.Silent p) (hb : p .began = false) :
    F.opening.countP p = 0 := by
  simp [opening, List.countP_eq_zero, hp.heard, hb]

/-! Between the judgement and the record, the word is told and nothing else. -/

theorem callbacks_course (w : List RunSignal) (executed : Bool) :
    (F.course w executed).filterMap Milestone.callback?
      = w.flatMap fun s => F.audience.map (·, s) := by
  have hw : ∀ w : List RunSignal, (w.flatMap F.told).filterMap Milestone.callback?
      = w.flatMap fun s => F.audience.map (·, s) := by
    intro w
    induction w with
    | nil => rfl
    | cons s rest ih =>
      rw [List.flatMap_cons, List.filterMap_append, callbacks_told, ih, List.flatMap_cons]
  have hmarks : [Milestone.attempted, .concluded].filterMap Milestone.callback? = [] := rfl
  unfold course
  split
  · rw [List.filterMap_append, List.filterMap_append, hw, hw, hmarks, List.append_nil,
      ← List.flatMap_append, List.take_append_drop]
  · exact hw w

theorem records_course (w : List RunSignal) (executed : Bool) :
    (F.course w executed).filterMap Milestone.record? = [] := by
  have hw : ∀ w : List RunSignal, (w.flatMap F.told).filterMap Milestone.record? = [] := by
    intro w
    induction w with
    | nil => rfl
    | cons s rest ih => rw [List.flatMap_cons, List.filterMap_append, records_told, ih]; rfl
  unfold course
  split
  · rw [List.filterMap_append, List.filterMap_append, hw, hw]
    rfl
  · exact hw w

theorem countP_course (hp : Milestone.Silent p) (w : List RunSignal) (executed : Bool) :
    (F.course w executed).countP p
      = if executed then [Milestone.attempted, .concluded].countP p else 0 := by
  have hw : ∀ w : List RunSignal, (w.flatMap F.told).countP p = 0 := by
    intro w
    induction w with
    | nil => rfl
    | cons s rest ih => rw [List.flatMap_cons, List.countP_append, F.countP_told hp, ih]
  unfold course
  split
  · rw [List.countP_append, List.countP_append, hw, hw, Nat.zero_add, Nat.add_zero]
  · exact hw w

end Start

theorem Run.Stopped.of_verdict {x : Run} {answer : Except String Bool}
    (h : verdict x.trigger x.audience = answer) (hne : answer ≠ .ok true) :
    ∃ pre l, x.Stopped pre l answer ∧ asked x.trigger x.audience = pre ++ [l] := by
  obtain ⟨pre, l, post, ha, hpre, hl, hasked⟩ := asked_of_objection h hne
  refine ⟨pre, l, ⟨⟨post, ?_⟩, hpre, hl⟩, hasked⟩
  rw [ha, List.append_assoc]
  rfl

/-- **A run that has ended with an outcome has told and recorded what it should.** -/
theorem Start.Closes.conduct {d : Definition} {x : Run} {o : Outcome}
    (h : x.start.Closes d x.log o) (hs : x.stage = .ended (.outcome o))
    (hb : x.hasBegun = true) : x.Conduct d := by
  have hqa := Milestone.silent_isAttempt
  have hqj := Milestone.silent_isJudgement
  -- who has been asked is the only thing that depends on who objects
  have hopening : ∀ ls, asked x.trigger x.audience = ls → x.start.opening.filterMap
      Milestone.callback? = ls.map (·, RunSignal.beforeEvaluate) := by
    intro ls hls
    rw [callbacks_opening]
    exact congrArg (List.map (·, RunSignal.beforeEvaluate)) hls
  generalize hl : x.log = log at h
  cases h with
  | dropped why => simp [Run.hasBegun, hl] at hb
  | vetoed hv =>
    obtain ⟨pre, l, hst, hask⟩ := Run.Stopped.of_verdict (x := x) hv (by simp)
    refine .forbidden hst hs ?_ ?_ ?_ ?_
    · rw [Run.callbacks, hl, hopening _ hask]
    · rw [Run.records, hl, records_opening]
    · rw [Run.judgements, hl, countP_opening _ hqj rfl]
    · rw [Run.attempts, hl, countP_opening _ hqa rfl]
  | broke now hv =>
    obtain ⟨pre, l, hst, hask⟩ := Run.Stopped.of_verdict (x := x) hv (by simp)
    refine .broken now hst hs ?_ ?_ ?_ ?_
    · rw [Run.callbacks, hl, List.filterMap_append, List.filterMap_append, hopening _ hask,
        callbacks_told]
      exact List.append_nil _
    · rw [Run.records, hl, List.filterMap_append, List.filterMap_append, records_opening,
        records_told]
      rfl
    · rw [Run.judgements, hl, List.countP_append, List.countP_append, countP_opening _ hqj rfl,
        countP_told _ hqj]
      rfl
    · rw [Run.attempts, hl, List.countP_append, List.countP_append, countP_opening _ hqa rfl,
        countP_told _ hqa]
      rfl
  | @ended w o condition executed error now hv hw =>
    have hask := asked_of_verdict_true hv
    refine .ended now (objection?_of_verdict_true hv) hw hs ?_ ?_ ?_ ?_
    · have hj : x.start.judging.filterMap Milestone.callback?
          = x.audience.map (·, RunSignal.beforeEvaluate) := by
        rw [judging, List.filterMap_append, hopening _ hask]
        exact List.append_nil _
      rw [Run.callbacks, hl, List.filterMap_append, List.filterMap_append, hj, callbacks_course]
      exact List.append_nil _
    · rw [Run.records, hl, judging, List.filterMap_append, List.filterMap_append,
        List.filterMap_append, records_opening, records_course]
      rfl
    · rw [Run.judgements, hl, judging, List.countP_append, List.countP_append, List.countP_append,
        countP_opening _ hqj rfl, countP_course _ hqj]
      cases executed <;> rfl
    · rw [Run.attempts, hl, judging, List.countP_append, List.countP_append, List.countP_append,
        countP_opening _ hqa rfl, countP_course _ hqa]
      cases executed <;> rfl

namespace Run.Accounts

variable {d : Definition} {x : Run}

/-- **However far a run has come that has started, it conducts itself well.** -/
theorem conduct (h : x.Accounts d) (hb : x.hasBegun = true) : x.Conduct d := by
  cases ho : x.isOver with
  | false => exact .goesOn ((h.hasBegun ho).symm.trans hb)
  | true =>
    unfold Run.isOver at ho
    split at ho
    · next e hs =>
      unfold Accounts at h
      rw [hs] at h
      cases e with
      | cancelled =>
        rw [Run.hasBegun, show x.log = [] from h] at hb
        cases hb
      | abandoned => exact .abandoned hs
      | outcome o => exact Start.Closes.conduct h hs hb
    · cases ho

/-- The action of a run is attempted at most once. -/
theorem attempts_le (h : x.Accounts d) : x.attempts ≤ 1 := by
  have hq := Milestone.silent_isAttempt
  have hjudging : x.start.judging.countP Milestone.isAttempt = 0 := by
    rw [Start.judging, List.countP_append, Start.countP_opening _ hq rfl]
    rfl
  have hstanding : x.start.standing.countP Milestone.isAttempt = 0 := by
    rw [Start.standing, List.countP_append, List.countP_append, hjudging, Start.countP_told _ hq,
      Start.countP_told _ hq]
  have hacting : x.start.acting.countP Milestone.isAttempt = 1 := by
    rw [Start.acting, List.countP_append, hstanding]
    rfl
  -- before its end, the log of a run is one of these four
  have hlog : x.log = [] ∨ x.log = x.start.judging ∨ x.log = x.start.standing ∨
      x.log = x.start.acting → x.attempts ≤ 1 := by
    rintro (hl | hl | hl | hl)
    · exact Nat.le_of_lt (Nat.lt_one_iff.mpr (by rw [attempts, hl]; rfl))
    · exact Nat.le_of_lt (Nat.lt_one_iff.mpr (by rw [attempts, hl, hjudging]))
    · exact Nat.le_of_lt (Nat.lt_one_iff.mpr (by rw [attempts, hl, hstanding]))
    · exact Nat.le_of_eq (by rw [attempts, hl, hacting])
  rcases h.log_nil_or_hasBegun with hl | hb
  · exact hlog (.inl hl)
  · cases h.conduct hb with
    | goesOn hi =>
      unfold Accounts at h
      cases hs : x.stage with
      | judging e => rw [hs] at h; exact hlog (.inr (.inl h.2))
      | delayed due => rw [hs] at h; exact hlog (.inr (.inr (.inl h.2)))
      | acting e dl => rw [hs] at h; exact hlog (.inr (.inr (.inr h.2)))
      | _ => rw [hs] at hi; cases hi
    | abandoned hs =>
      unfold Accounts at h
      rw [hs] at h
      rcases h with hl | ⟨-, hl | hl⟩
      · exact hlog (.inl hl)
      · exact hlog (.inr (.inr (.inl hl)))
      · exact hlog (.inr (.inr (.inr hl)))
    | forbidden _ _ _ _ _ ha => omega
    | broken _ _ _ _ _ _ ha => omega
    | ended _ _ _ _ _ _ _ ha => split at ha <;> omega

end Run.Accounts

/-! ## Steps -/

/-- What a step makes known: the callbacks of a run that are reported, and the records that are
kept. -/
inductive Core.Publishes (C C' : Core) : Prop
  /-- No run comes further. -/
  | quiet (hl : ∀ r, (C'.runAt r).log = (C.runAt r).log) (hr : C'.reports = C.reports)
    (hh : C'.history = C.history ∨ C'.history = C.history.clear)
  /-- A single run comes further. -/
  | speaks {r : Nat} {w : List Milestone} (hl : (C'.runAt r).log = (C.runAt r).log ++ w)
    (ho : ∀ m, m ≠ r → (C'.runAt m).log = (C.runAt m).log)
    (hr : C'.reports = C.reports ++ w.filterMap (·.report? r))
    (hh : C'.history = (w.filterMap (·.record?)).foldl History.push C.history)

namespace Core

variable {C C' : Core}

@[simp] theorem cancelPending_reports (C : Core) (p : Option (Nat × Nat)) :
    (C.cancelPending p).reports = C.reports := by
  cases p <;> rfl

@[simp] theorem cancelPending_history (C : Core) (p : Option (Nat × Nat)) :
    (C.cancelPending p).history = C.history := by
  cases p <;> rfl

@[simp] theorem unguard_reports (C : Core) (name : String) :
    (C.unguard name).reports = C.reports := by
  unfold unguard
  split <;> rfl

@[simp] theorem unguard_history (C : Core) (name : String) :
    (C.unguard name).history = C.history := by
  unfold unguard
  split <;> rfl

/-- A change in which no run comes further reports and records nothing. -/
theorem Change.quiet (h : C.Change C') (hsame : ∀ r, (C'.runAt r).log = (C.runAt r).log) :
    C'.reports = C.reports ∧ C'.history = C.history := by
  cases h with
  | @turns r hr S ht =>
    obtain ⟨w, hw, hrep, hhist⟩ := ht.follows.log
    have hnum : S.number = r := ht.follows.number
    have hlog : S.run.log = (C.runAt r).log := by
      have := hsame r
      rwa [runAt_put_self C hnum hr] at this
    have hnil : w = [] := by
      have : (C.runAt r).log ++ w = (C.runAt r).log := hw.symm.trans hlog
      simpa using this
    subst hnil
    exact ⟨hrep.trans (List.append_nil _), hhist⟩
  | defines hd =>
    unfold define
    split <;> simp [retire, modifyInstance, enforce]
  | deregisters hn => simp [deregister, retire, modifyInstance]
  | guards hs name => simp [guard, modifyInstance]
  | unguards name => simp
  | _ => exact ⟨rfl, rfl⟩

/-- **A report is made, and a record kept, exactly when the log of a run says so.** -/
theorem Change.publishes (h : C.Change C') : C.Publishes C' := by
  -- only a turn adds to a log
  by_cases hsame : ∀ r, (C'.runAt r).log = (C.runAt r).log
  · obtain ⟨hr, hh⟩ := h.quiet hsame
    exact .quiet hsame hr (.inl hh)
  · obtain ⟨r, hr⟩ := not_forall.mp hsame
    obtain ⟨hlt, S, ht, rfl, hx⟩ := (Step.change h).turn_of_log hr
    obtain ⟨w, hw, hrep, hhist⟩ := ht.follows.log
    have hnum : S.number = r := ht.follows.number
    refine .speaks (r := r) (w := w) (hx ▸ hw) ?_ hrep hhist
    intro m hm
    rw [C.runAt_put_ne (fun he => hm (he.symm.trans hnum))]

theorem Step.publishes (h : C.Step C') : C.Publishes C' := by
  cases h with
  | change h => exact h.publishes
  | forgets => exact .quiet (fun _ => rfl) rfl (.inr rfl)
  | pass ht ha => exact .quiet (fun _ => rfl) rfl (.inl rfl)

/-- A run that starts takes the listeners that there are. -/
theorem Step.audience_new (h : C.Step C') (ha : C.Accounts) {r : Nat}
    (hb : (C.runAt r).hasBegun = false) (hb' : (C'.runAt r).hasBegun = true) :
    (C'.runAt r).audience = C.listeners := by
  have hlog : (C'.runAt r).log ≠ (C.runAt r).log := by
    intro he
    rw [Run.hasBegun, he] at hb'
    rw [Run.hasBegun, hb'] at hb
    cases hb
  obtain ⟨hr, S, ht, -, hx⟩ := h.turn_of_log hlog
  rw [hx] at hlog ⊢
  rcases ht.audience with ⟨hi, -⟩ | ⟨-, haud | hsame⟩
  · have hbi := (ha r hr).hasBegun ht.not_over
    rw [hb] at hbi
    exact absurd (hbi.trans hi) Bool.noConfusion
  · exact haud
  · exact absurd hsame hlog

/-- A run that has started keeps its listeners. -/
theorem Step.audience_kept (h : C.Step C') (ha : C.Accounts) {r : Nat}
    (hb : (C.runAt r).hasBegun = true) : (C'.runAt r).audience = (C.runAt r).audience := by
  have hr := hasBegun_lt hb
  cases h.run hr with
  | same hx => rw [hx]
  | cancelled hx =>
    rw [hx]
    unfold Run.cancelDeferral
    split <;> rfl
  | @turned S ht hc =>
    have hnum : S.number = r := ht.follows.number
    rw [hc, runAt_put_self C hnum hr]
    rcases ht.audience with ⟨-, haud⟩ | ⟨hi, -⟩
    · exact haud
    · have hbi := (ha r hr).hasBegun ht.not_over
      exact absurd (hb.symm.trans (hbi.trans hi)) Bool.noConfusion
  | deferred hd hx => rw [hx]; rfl
  | abandoned _ _ hx => rw [hx]; rfl

end Core

namespace Engine

/-- **Every run that has started either goes on, has lost its client, was forbidden with nothing else
happening, or has told all of its listeners the same word and left one record; the listeners are
those of its start, and what its log says is what is reported and kept.** -/
theorem callbacks_and_records {E : Engine} (hE : E.Reachable) :
    (∀ r, (E.runAt r).attempts ≤ 1 ∧
      ((E.runAt r).hasBegun = true → (E.runAt r).Conduct (E.ruleOf r).definition)) ∧
      ∀ E' : Engine, Step E E' →
        E.core.Publishes E'.core ∧
        ∀ r, ((E.runAt r).hasBegun = false → (E'.runAt r).hasBegun = true →
            (E'.runAt r).audience = E.listeners) ∧
          ((E.runAt r).hasBegun = true → (E'.runAt r).audience = (E.runAt r).audience) := by
  have ha := hE.accounts
  refine ⟨?_, ?_⟩
  · intro r
    refine ⟨?_, fun hb => (ha r (Core.hasBegun_lt (C := E.core) hb)).conduct hb⟩
    by_cases hr : r < E.core.runs.length
    · exact (ha r hr).attempts_le
    · rw [← core_runAt, Core.runAt_of_le (Nat.le_of_not_lt hr)]
      exact Nat.zero_le 1
  · intro E' hs
    have hc := hs.core hE.valid
    exact ⟨hc.publishes, fun r => ⟨hc.audience_new ha, hc.audience_kept ha⟩⟩

/-- Two listeners follow a run of a rule, of which one breaks off on what it hears. -/
def heard : Engine :=
  let E := (blank.serve (.listen { number := 0, name := "a", role := .reporter false })).serve
    (.listen { number := 1, name := "b", role := .reporter false, panics := ["after_execute"] })
  ((E.serve (.define prompt)).serve (.notify 0 change .dropIfBusy)).settle

theorem reachable_heard : heard.Reachable := by
  have h₁ := fresh_blank.reachable.step (.request (q := .listen
    { number := 0, name := "a", role := .reporter false }) trivial)
  have h₂ := h₁.step (.request (q := .listen
    { number := 1, name := "b", role := .reporter false, panics := ["after_execute"] }) trivial)
  have h₃ := h₂.step (.request (q := .define prompt) trivial)
  have h₄ := h₃.step (.request (admits_notify (n := 0) (by decide +kernel) change .dropIfBusy))
  exact h₄.steps (steps_settle _)

/-- The run conducts itself well, which here means that each of the two hears the longest word. -/
theorem heard_conduct : (heard.runAt 0).Conduct (heard.ruleOf 0).definition ∧
    ((heard.runAt 0).callbacks.map fun c => (c.1.name, c.2.name)) =
      [("a", "before_evaluate"), ("b", "before_evaluate"), ("a", "after_evaluate"),
        ("b", "after_evaluate"), ("a", "before_execute"), ("b", "before_execute"),
        ("a", "after_execute"), ("b", "after_execute"), ("a", "on_success"), ("b", "on_success")] :=
  ⟨((callbacks_and_records reachable_heard).1 0).2 (by decide +kernel), by decide +kernel⟩

end Engine

end ReactiveRules