import ReactiveRules.Proofs.Engine.Turn

/-!
# `Proofs/Engine/Course.lean` — a run's course keeps to its scene

One lemma for each definition of a run's course: in the middle of a turn, it takes the scene to the
next as `Scene` says, or to one of those that `Scene` allows. **`At.performRun` puts them
together**: a turn of a run does what `Scene.Turn` lists, or puts off its evaluation, or nothing.
-/

set_option autoImplicit false

namespace ReactiveRules.Engine

namespace At

variable {E : Engine} {C : Core} {S : Scene}

/-! ## Single changes -/

theorem notice (h : E.At C S) (n : Notice) : (E.notice n).At C S := h.quiet (core_notice E n)

theorem mark (h : E.At C S) (m : Milestone) : (E.mark S.number m).At C (S.mark m) :=
  h.modifyRun _ rfl

theorem setStage (h : E.At C S) (s : Stage) : (E.setStage S.number s).At C (S.setStage s) :=
  h.modifyRun _ rfl

theorem modifyRuleOf (h : E.At C S) (f : Rule → Rule) :
    (E.modifyRuleOf S.number f).At C (S.mapRule f) := by
  unfold Engine.modifyRuleOf
  rw [h.runAt]
  exact h.modifyInstance _

/-- Changing the slot of the instance that the run is for. -/
theorem modifySlot (h : E.At C S) (f : Slot Nat → Slot Nat) :
    (E.modifyInstance (E.runAt S.number).rule fun i => { i with slot := f i.slot }).At C
      (S.mapSlot f) := by
  rw [h.runAt]
  exact h.modifyInstance _

/-! ## The end -/

theorem free (h : E.At C S) :
    (E.free S.number).At C
      { S with
        run := { S.run with claimed := false }
        rule := { S.rule with slot := S.freed } } := by
  unfold Engine.free Scene.freed
  rw [h.runAt, h.ruleOf]
  -- a run that holds nothing has nothing to give back
  cases hc : S.run.claimed with
  | false =>
    have hS : { S with run := { S.run with claimed := false } } = S := by rw [← hc]
    simpa [hS] using h
  | true =>
    have hm := h.modifySlot fun _ => S.rule.slot.release.1
    rw [h.runAt] at hm
    have hr := hm.modifyRun (fun x => { x with claimed := false }) rfl
    exact hr.quiet (core_foldl (fun E _ => core_wake E _) _ _)

theorem answer (h : E.At C S) (o : Outcome) :
    (E.answer S.number o).At C { S with run := { S.run with answered := true } } := by
  unfold Engine.answer
  rw [h.runAt]
  cases ha : S.run.answered with
  | true =>
    have hS : { S with run := { S.run with answered := true } } = S := by rw [← ha]
    simpa [hS] using h
  | false =>
    have hm := h.modifyRun (fun x => { x with answered := true }) rfl
    have hr := hm.runAt
    simp only [Bool.false_eq_true, if_false]
    -- each kind of client hears of it in its own way, none of which touches the core
    rw [hr]
    split
    · exact hm.quiet (core_finishTask _ _ _)
    · exact hm.quiet (core_goOn _ _)
    · exact hm.quiet ((core_goOn _ _).trans (core_setWorker _ _ _ _))
    · exact hm.quiet (core_reply _ _ _)

theorem finish (h : E.At C S) (o : Outcome) : (E.finish S.number o).At C (S.finish o) :=
  ((h.setStage _).free).answer o

/-! ## Telling -/

theorem hear (h : E.At C S) (s : RunSignal) (l : Listener) :
    (E.hear S.number s l).At C (S.announce s [l]) := by
  have hm := h.mark (.heard l s)
  unfold Engine.hear
  cases hl : l.role with
  | reporter full =>
    have hc : ((E.mark S.number (.heard l s)).say (.heard l.name full s S.number)).At C
        (S.announce s [l]) := by
      refine ⟨?_, h.number_lt, h.rule_lt⟩
      rw [core_say, hm.core]
      simp [Core.put, Scene.mark, Scene.announce, Listener.report?, hl, Entry.report?]
    dsimp only
    split
    · exact hc.notice _
    · exact hc
  | publisher =>
    have hS : S.announce s [l] = S.mark (.heard l s) := by
      simp [Scene.mark, Scene.announce, Listener.report?, hl]
    rw [hS]
    exact hm.quiet (core_publish _ _ _)

theorem announce (s : RunSignal) :
    ∀ {ls : List Listener} {E : Engine} {S : Scene}, E.At C S →
      (ls.foldl (fun E l => E.hear S.number s l) E).At C (S.announce s ls) := by
  intro ls
  induction ls with
  | nil => intro E S h; rw [Scene.announce_nil]; exact h
  | cons l rest ih =>
    intro E S h
    rw [← Scene.announce_cons]
    exact ih (h.hear s l)

theorem tell (h : E.At C S) (s : RunSignal) : (E.tell S.number s).At C (S.tell s) := by
  unfold Engine.tell
  rw [h.runAt]
  exact h.announce s

/-- The listeners are asked up to the first that objects, and its word counts. -/
theorem ask :
    ∀ {ls : List Listener} {E : Engine} {S : Scene}, E.At C S →
      (E.ask S.number ls).1.At C (S.announce .beforeEvaluate (asked S.run.trigger ls)) ∧
        (E.ask S.number ls).2 = verdict S.run.trigger ls := by
  intro ls
  induction ls with
  | nil => intro E S h; exact ⟨by rw [asked, Scene.announce_nil]; exact h, rfl⟩
  | cons l rest ih =>
    intro E S h
    have hm := h.mark (.heard l .beforeEvaluate)
    unfold Engine.ask
    cases hl : l.role with
    | publisher =>
      -- a publisher is told, but cannot object
      have ho : l.objection? S.run.trigger = none := by simp [Listener.objection?, hl]
      have hS : S.announce .beforeEvaluate [l] = S.mark (.heard l .beforeEvaluate) := by
        simp [Scene.mark, Scene.announce, Listener.report?, hl]
      obtain ⟨ha, hv⟩ := ih (hS ▸ hm)
      rw [Scene.announce_trigger] at ha hv
      rw [Scene.announce_cons] at ha
      exact ⟨by simpa [asked, ho] using ha, by simpa [verdict, ho] using hv⟩
    | reporter full =>
      have hc : ((E.mark S.number (.heard l .beforeEvaluate)).say
          (.heard l.name full .beforeEvaluate S.number)).At C (S.announce .beforeEvaluate [l]) := by
        refine ⟨?_, h.number_lt, h.rule_lt⟩
        rw [core_say, hm.core]
        simp [Core.put, Scene.mark, Scene.announce, Listener.report?, hl, Entry.report?]
      -- breaking off comes before forbidding, and either ends the asking
      dsimp only
      split
      · next hb =>
        have ho : l.objection? S.run.trigger
            = some (.error (Listener.panicMessage .beforeEvaluate)) := by
          simp [Listener.objection?, hl, hb]
        exact ⟨by simpa [asked, ho] using hc, by simp [verdict, ho]⟩
      · next hb =>
        have ht := congrArg Run.trigger hc.runAt
        simp only [Scene.announce_number, Scene.announce_trigger] at ht
        rw [ht]
        split
        · next hf =>
          have ho : l.objection? S.run.trigger = some (.ok false) := by
            simp [Listener.objection?, hl, hb, hf]
          exact ⟨by simpa [asked, ho] using hc, by simp [verdict, ho]⟩
        · next hf =>
          have ho : l.objection? S.run.trigger = none := by
            simp [Listener.objection?, hl, hb, hf]
          obtain ⟨ha, hv⟩ := ih hc
          rw [Scene.announce_trigger] at ha hv
          rw [Scene.announce_cons] at ha
          exact ⟨by simpa [asked, ho] using ha, by simpa [verdict, ho] using hv⟩

theorem record (h : E.At C S) (condition executed : Bool) (error : Option RuleError) :
    (E.record S.number condition executed error).At C
      (S.record C.now condition executed error) := by
  have hm := h.mark (.recorded (S.run.recordAt S.rule.definition C.now condition executed error))
  refine ⟨?_, h.number_lt, h.rule_lt⟩
  unfold Engine.record
  rw [h.runAt, h.ruleOf, h.now, h.history]
  have hc := hm.core
  simp only [Engine.core, Core.put, Core.mk.injEq] at hc ⊢
  obtain ⟨h1, h2, h3, h4, h5, h6, -, h8⟩ := hc
  exact ⟨h1, h2, h3, h4, h5, h6, rfl, h8⟩

/-! ## Ways to end -/

theorem breakOff (h : E.At C S) (m : String) :
    (E.breakOff S.number m).At C (S.breakOff C.now m) :=
  ((((h.notice _).modifyRuleOf _).tell _).record _ _ _).finish _

/-- Facts are forgotten after an attempt if the rule says so, and the attempt counts. -/
theorem attempted (h : E.At C S) (success : Bool) :
    ((if S.rule.definition.clearFacts then E.modifyRuleOf S.number Rule.clearFacts
      else E).modifyRuleOf S.number (·.markCompleted C.now success)).At C
      (S.mapRule (Scene.attempted C.now success)) := by
  cases hc : S.rule.definition.clearFacts with
  | true =>
    have hS : (S.mapRule Rule.clearFacts).mapRule (·.markCompleted C.now success)
        = S.mapRule (Scene.attempted C.now success) := by
      simp [Scene.mapRule, Instance.mapRule, Scene.attempted, Rule.clearFacts, hc]
    exact hS ▸ (h.modifyRuleOf Rule.clearFacts).modifyRuleOf _
  | false =>
    have hS : S.mapRule (·.markCompleted C.now success)
        = S.mapRule (Scene.attempted C.now success) := by
      simp [Scene.mapRule, Instance.mapRule, Scene.attempted, hc]
    exact hS ▸ h.modifyRuleOf _

theorem conclude (h : E.At C S) (result : Except RuleError Json) :
    (E.conclude S.number result).At C (S.conclude C.now result) := by
  have hm := h.mark .concluded
  -- whether or not facts are forgotten, it is the time of the turn that is noted
  have hn : ((if S.rule.definition.clearFacts then
      (E.mark S.number .concluded).modifyRuleOf S.number Rule.clearFacts
      else E.mark S.number .concluded)).now = C.now := by
    split
    · exact (hm.modifyRuleOf Rule.clearFacts).now
    · exact hm.now
  unfold Engine.conclude
  rw [h.ruleOf]
  cases result with
  | ok v =>
    dsimp only
    rw [hn]
    exact (((((hm.attempted true).notice _).tell _).tell _).record _ _ _).finish _
  | error e =>
    dsimp only
    rw [hn]
    exact ((((hm.attempted false).notice _).tell _).record _ _ _).finish _

theorem expire (h : E.At C S) (e : Nat) :
    ∃ result, (E.expire S.number e).At C (S.conclude C.now result) := by
  unfold Engine.expire
  exact ⟨_, (h.quiet (core_modifyEvaluation E e _)).conclude _⟩

theorem forgo (h : E.At C S) : (E.forgo S.number).At C (S.forgo C.now) := by
  unfold Engine.forgo
  rw [h.ruleOf]
  exact (((h.notice _).tell _).record _ _ _).finish _

/-! ## Ways to go on -/

theorem showFacts (h : E.At C S) : (E.showFacts S.number).At C S := h.quiet (core_showFacts E _)

theorem evaluate (h : E.At C S) {E' : Engine} {r : Nat} {p : Purpose} {text : String}
    {x : Except ScriptError Nat} (he : E.evaluate r p text = (E', x)) : E'.At C S := by
  have hc := core_evaluate E r p text
  rw [he] at hc
  exact h.quiet hc

theorem act (h : E.At C S) : ∃ S', Scene.Acts C.now S S' ∧ (E.act S.number).At C S' := by
  have hm := (h.mark .attempted).showFacts
  unfold Engine.act
  rw [h.ruleOf]
  dsimp only
  split
  · next E' e he => exact ⟨_, .unread e, (hm.evaluate he).conclude _⟩
  · next E' e he =>
    have hE := hm.evaluate he
    refine ⟨_, .acting e, ?_⟩
    rw [hE.now]
    exact (hE.setStage _).quiet ((core_goOn _ _).trans (core_wake _ _))

theorem proceed (h : E.At C S) :
    ∃ S', Scene.Proceeds C.now S S' ∧ (E.proceed S.number).At C S' := by
  have ht := h.tell .beforeExecute
  unfold Engine.proceed
  rw [h.ruleOf, h.now]
  dsimp only
  split
  · next hr => exact ⟨_, .rests hr, (((h.notice _).tell _).record _ _ _).finish _⟩
  · next hr =>
    have hr' : S.rule.inRefractory C.now = false := by simpa using hr
    split
    · next hd =>
      obtain ⟨S', ha, hE⟩ := ht.act
      exact ⟨S', .acts hr' (beq_iff_eq.mp hd) ha, hE⟩
    · next hd =>
      refine ⟨_, .delays hr' (by simpa using hd), ?_⟩
      rw [ht.now]
      exact (ht.setStage _).quiet (core_goOn _ _)

theorem decideOn (h : E.At C S) (result : Except ScriptError Bool) :
    ∃ S', Scene.Decides C.now S S' ∧ (E.decideOn S.number result).At C S' := by
  rcases result with e | (_ | _)
  · exact ⟨_, .misjudged e, ((((h.notice _).tell _).tell _).record _ _ _).finish _⟩
  · exact ⟨_, .declines, (((h.tell _).tell _).record _ _ _).finish _⟩
  · obtain ⟨S', hp, hE⟩ := (h.tell (.afterEvaluate true)).proceed
    exact ⟨S', .proceeds hp, hE⟩

theorem judge (h : E.At C S) : ∃ S', Scene.Judges C.now S S' ∧ (E.judge S.number).At C S' := by
  have hm := ((h.mark .judged).showFacts).modifyRuleOf Rule.markEvaluated
  unfold Engine.judge
  dsimp only
  split
  · next E' e he =>
    have hE := hm.evaluate he
    exact ⟨_, .unread e, ((((hE.notice _).tell _).tell _).record _ _ _).finish _⟩
  · next E' e he => exact ⟨_, .judging e, ((hm.evaluate he).setStage _).quiet (core_goOn _ _)⟩

/-- The run notes when it starts and who listens, and asks them. -/
theorem begin (h : E.At C S) {E₁ : Engine}
    (hE : E₁ = (E.modifyRun S.number fun x =>
      { x with started := E.now, audience := E.listeners }).mark S.number .began) :
    (E₁.ask S.number E₁.listeners).1.At C (S.begin C.now C.listeners) ∧
      (E₁.ask S.number E₁.listeners).2 = verdict S.run.trigger C.listeners := by
  have hb := (h.modifyRun (fun x => { x with started := E.now, audience := E.listeners }) rfl).mark
    .began
  have hl : E₁.listeners = C.listeners := by rw [hE]; exact hb.listeners
  rw [hl, hE, Scene.begin, ← h.now, ← h.listeners]
  exact hb.ask

theorem start (h : E.At C S) :
    ∃ S', Scene.Starts C.now C.listeners S S' ∧ (E.start S.number).At C S' := by
  unfold Engine.start
  rw [h.ruleOf]
  dsimp only
  split
  · next hr => exact ⟨_, .rests (h.now ▸ hr), (h.notice _).finish _⟩
  · next hr =>
    have hr' : S.rule.inRefractory C.now = false := by simpa [h.now] using hr
    obtain ⟨ha, hv⟩ := h.begin rfl
    split
    · next E' m he =>
      rw [he] at ha hv
      exact ⟨_, .broke hr' hv.symm, ha.breakOff m⟩
    · next E' he =>
      rw [he] at ha hv
      exact ⟨_, .vetoed hr' hv.symm, (ha.notice _).finish _⟩
    · next E' he =>
      rw [he] at ha hv
      obtain ⟨S', hj, hE⟩ := ha.judge
      exact ⟨S', .judges hr' hv.symm hj, hE⟩

theorem hold (h : E.At C S) (slot : Slot Nat) : (E.hold S.number slot).At C (S.hold slot) :=
  (h.modifySlot fun _ => slot).modifyRun _ rfl

theorem claim (h : E.At C S) :
    ∃ S', Scene.Claims C.now C.listeners S S' ∧ (E.claim S.number).At C S' := by
  unfold Engine.claim
  rw [h.ruleOf]
  dsimp only
  split
  · next hr => exact ⟨_, .retired hr, h.finish _⟩
  · next hr =>
    have hr' : S.rule.retired = false := by simpa using hr
    cases hs : S.rule.slot.claim? with
    | some slot =>
      obtain ⟨S', ha, hE⟩ := (h.hold slot).start
      exact ⟨S', .starts hr' hs ha, hE⟩
    | none =>
      rw [h.runAt]
      dsimp only
      cases ha : S.run.admission with
      | dropIfBusy => exact ⟨_, .busy hr' hs ha, (h.notice _).finish _⟩
      | wait =>
        have hm := h.modifySlot (·.enlist S.number)
        rw [h.runAt] at hm
        exact ⟨_, .waits hr' hs ha, hm.setStage _⟩

/-! ## Arrival -/

theorem cancelDeferral (h : E.At C S) (p : Nat) (hs : S.run.cancelDeferral = S.run) :
    (E.cancelDeferral p).At (C.cancelDeferral p) S := by
  refine ⟨?_, by simpa [Core.cancelDeferral] using h.number_lt, h.rule_lt⟩
  rw [core_cancelDeferral, h.core]
  -- if `p` is the run of the scene, the scene says what it is
  have hm : (C.runs.set S.number S.run).modify p Run.cancelDeferral
      = (C.runs.modify p Run.cancelDeferral).set S.number S.run := by
    apply List.ext_getElem?
    intro m
    by_cases hn : S.number = m
    · subst hn
      by_cases hp : p = S.number <;> simp [h.number_lt, hp, hs]
    · simp [List.getElem?_modify, List.getElem?_set_ne hn]
  simp only [Core.cancelDeferral, Core.put, hm]

theorem defer (h : E.At C S) (hs : S.run.stage = .arriving) :
    (E.defer S.number).At (C.cancelPending S.rule.pending) (S.defer C.now) := by
  have hm := h.modifyRuleOf (·.supersede S.number)
  have hc : (S.mapRule (·.supersede S.number)).run.cancelDeferral
      = (S.mapRule (·.supersede S.number)).run := by
    simp [Run.cancelDeferral, Scene.mapRule, hs]
  unfold Engine.defer
  rw [h.ruleOf]
  dsimp only
  cases hp : S.rule.pending with
  | none =>
    dsimp only
    rw [hm.now]
    exact (hm.setStage _).answer _
  | some p =>
    have hd := (hm.notice (.superseded S.rule.id p.1)).cancelDeferral p.2 hc
    dsimp only
    rw [hd.now]
    exact (hd.setStage _).answer _

theorem arrive (h : E.At C S) (hs : S.run.stage = .arriving) :
    (∃ S', Scene.Turn C.now C.listeners S S' ∧ (E.arrive S.number).At C S') ∨
      (Scene.Defers C.now S ∧
        (E.arrive S.number).At (C.cancelPending S.rule.pending) ((S.accept C.now).defer C.now)) := by
  have ha := (h.modifyRuleOf (·.recordFact C.now S.run.trigger.node S.run.trigger.name
    S.run.trigger.value)).modifyRun (fun x => { x with admitted := true }) rfl
  unfold Engine.arrive
  rw [h.ruleOf, h.runAt, h.now]
  dsimp only
  split
  · next hp => exact .inl ⟨_, .paused hs hp, (h.notice _).finish _⟩
  · next hp =>
    have hp' : S.rule.paused = false := by simpa using hp
    split
    · next hr => exact .inl ⟨_, .rests hs hp' hr, (h.notice _).finish _⟩
    · next hr =>
      have hr' : S.rule.inRefractory C.now = false := by simpa using hr
      split
      · next hd =>
        obtain ⟨S', hc, hE⟩ := ha.claim
        exact .inl ⟨S', .arrives hs hp' hr' (beq_iff_eq.mp hd) hc, hE⟩
      · next hd => exact .inr ⟨⟨hs, hp', hr', by simpa using hd⟩, ha.defer hs⟩

/-! ## Turns -/

theorem wakeDeferred (h : E.At C S) {g due : Nat} {c : Bool} (hs : S.run.stage = .deferred g due c)
    (second : Bool) :
    ((C.now < due ∧ c = false) ∧ (E.wakeDeferred S.number g due c second).At C S) ∨
      ∃ S', Scene.Turn C.now C.listeners S S' ∧
        (E.wakeDeferred S.number g due c second).At C S' := by
  unfold Engine.wakeDeferred
  rw [h.now]
  -- if it is due and cancelled at once, `second` decides
  split
  · next hd =>
    have hd' : due ≤ C.now := by simp at hd; exact hd.1
    obtain ⟨S', hc, hE⟩ := (h.modifyRuleOf (·.finishPending g)).claim
    exact .inr ⟨S', .fires hs hd' hc, hE⟩
  · next hd =>
    split
    · next hc => exact .inr ⟨_, .cancelled (hc ▸ hs), (h.notice _).setStage _⟩
    · next hc =>
      have hc' : c = false := by simpa using hc
      refine .inl ⟨⟨?_, hc'⟩, h⟩
      simpa [hc'] using hd

theorem wakeDelayed (h : E.At C S) {due : Nat} (hs : S.run.stage = .delayed due) (second : Bool) :
    (S.rule.retired = false ∧ (E.wakeDelayed S.number due second).At C S) ∨
      ∃ S', Scene.Turn C.now C.listeners S S' ∧ (E.wakeDelayed S.number due second).At C S' := by
  unfold Engine.wakeDelayed
  rw [h.ruleOf, h.now]
  dsimp only
  -- if it is due and the instance retired at once, `second` decides
  split
  · next hd =>
    have hd' : due ≤ C.now := by simp at hd; exact hd.1
    obtain ⟨S', ha, hE⟩ := h.act
    exact .inr ⟨S', .acts hs hd' ha, hE⟩
  · split
    · next hr => exact .inr ⟨_, .forgoes hs hr, h.forgo⟩
    · next hr => exact .inl ⟨by simpa using hr, h⟩

theorem wakeWaiting (h : E.At C S) (hs : S.run.stage = .waiting) (second : Bool) :
    (S.rule.retired = false ∧ (E.wakeWaiting S.number second).At C S) ∨
      ∃ S', Scene.Turn C.now C.listeners S S' ∧ (E.wakeWaiting S.number second).At C S' := by
  have hmem : S.rule.slot.waiting.contains S.number = false →
      S.number ∉ S.rule.slot.waiting := by
    intro hc hm
    rw [List.contains_iff_mem.mpr hm] at hc
    cases hc
  unfold Engine.wakeWaiting
  rw [h.ruleOf]
  dsimp only
  cases hw : S.rule.slot.waiting.contains S.number with
  | true =>
    -- nobody has given the slot back, so only retirement matters
    simp only [Bool.not_true, Bool.false_and, Bool.false_eq_true, if_false]
    split
    · next hr =>
      exact .inr ⟨_, .leaves hs hr, ((h.modifySlot (·.forget S.number)).notice _).finish _⟩
    · next hr => exact .inl ⟨by simpa using hr, h⟩
  | false =>
    cases hr : S.rule.retired with
    | true =>
      -- if the slot can be had as well, `second` decides
      simp only [Bool.not_false, Bool.true_and, if_true]
      split
      · next slot hc =>
        have hc' : S.rule.slot.claim? = some slot := by
          split at hc
          · exact hc
          · cases hc
        obtain ⟨S', ha, hE⟩ := (h.hold slot).start
        exact .inr ⟨S', .gains hs (hmem hw) hc' ha, hE⟩
      · exact .inr ⟨_, .leaves hs hr, ((h.modifySlot (·.forget S.number)).notice _).finish _⟩
    | false =>
      simp only [Bool.not_false, Bool.true_and, Bool.false_and, if_true, Bool.false_eq_true,
        if_false]
      cases hc : S.rule.slot.claim? with
      | some slot =>
        obtain ⟨S', ha, hE⟩ := (h.hold slot).start
        exact .inr ⟨S', .gains hs (hmem hw) hc ha, hE⟩
      | none => exact .inr ⟨_, .queues hs (hmem hw) hc hr, h.modifySlot (·.enlist S.number)⟩

/-- **A turn of a run does what `Scene.Turn` lists, or puts off its evaluation, or nothing**, if the run
has nothing to do. -/
theorem performRun (h : E.At C S) (second : Bool) :
    (Scene.Idle C.now S ∧ (E.performRun S.number second).At C S) ∨
      (∃ S', Scene.Turn C.now C.listeners S S' ∧ (E.performRun S.number second).At C S') ∨
      (Scene.Defers C.now S ∧ (E.performRun S.number second).At (C.cancelPending S.rule.pending)
        ((S.accept C.now).defer C.now)) := by
  unfold Engine.performRun
  cases hx : E.runs[S.number]? with
  | none =>
    have hlt := h.number_lt
    have hlen : E.runs.length = C.runs.length := by
      have hr : E.runs = C.runs.set S.number S.run := congrArg Core.runs h.core
      rw [hr, List.length_set]
    exact absurd (List.getElem?_eq_none_iff.mp hx) (by omega)
  | some x =>
    have hr : x = S.run := by rw [← h.runAt, Engine.runAt, List.getD_eq_getElem?_getD, hx]; rfl
    subst hr
    dsimp only
    cases hs : S.run.stage with
    | arriving => exact .inr (h.arrive hs)
    | deferred g due c =>
      rcases h.wakeDeferred hs second with ⟨hwait, hE⟩ | hE
      · refine .inl ⟨⟨fun hl => absurd (hs ▸ hl) Bool.noConfusion, fun _ _ _ hd => ?_⟩, hE⟩
        rw [hs] at hd
        cases hd
        exact hwait
      · exact .inr (.inl hE)
    | waiting =>
      rcases h.wakeWaiting hs second with ⟨hret, hE⟩ | hE
      · exact .inl ⟨⟨fun _ => hret, fun _ _ _ hd => by rw [hs] at hd; cases hd⟩, hE⟩
      · exact .inr (.inl hE)
    | delayed due =>
      rcases h.wakeDelayed hs second with ⟨hret, hE⟩ | hE
      · exact .inl ⟨⟨fun _ => hret, fun _ _ _ hd => by rw [hs] at hd; cases hd⟩, hE⟩
      · exact .inr (.inl hE)
    | acting e deadline =>
      have hidle : Scene.Idle C.now S := .of_stage hs rfl fun _ _ _ => Stage.noConfusion
      cases deadline with
      | none => exact .inl ⟨hidle, h⟩
      | some d =>
        dsimp only
        split
        · obtain ⟨result, hE⟩ := h.expire e
          exact .inr (.inl ⟨_, .concludes hs result, hE⟩)
        · exact .inl ⟨hidle, h⟩
    | judging e => exact .inl ⟨.of_stage hs rfl fun _ _ _ => Stage.noConfusion, h⟩
    | ended x => exact .inl ⟨.of_stage hs rfl fun _ _ _ => Stage.noConfusion, h⟩

end At

end ReactiveRules.Engine
