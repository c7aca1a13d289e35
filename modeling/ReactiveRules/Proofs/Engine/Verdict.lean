import ReactiveRules.Proofs.Engine.Airing
import ReactiveRules.Proofs.Engine.Callbacks

/-!
# `Proofs/Engine/Verdict.lean` — what the condition of a run was found to be

A condition is judged by an evaluation, which ends with a truth value or an error, breaks off, or
does not even begin because the text cannot be read. `Engine.Finds` says what came of it, told by
the evaluation alone. **The listeners of a run, if it has any, hear of a judgement exactly if the
evaluation has returned it** (`Engine.Trail.verdict_iff`): nobody makes one up, and none is lost.
-/

set_option autoImplicit false

namespace ReactiveRules

/-- What a signal says that the condition was found to be. -/
def RunSignal.verdict? : RunSignal → Option (Except ScriptError Bool)
  | .afterEvaluate condition => some (.ok condition)
  | .evaluationError e => some (.error e)
  | _ => none

/-- The signal that says so. -/
def RunSignal.ofVerdict : Except ScriptError Bool → RunSignal
  | .ok condition => .afterEvaluate condition
  | .error e => .evaluationError e

theorem RunSignal.verdict?_ofVerdict (y : Except ScriptError Bool) :
    (RunSignal.ofVerdict y).verdict? = some y := by
  cases y <;> rfl

namespace Milestone

def verdict? : Milestone → Option (Except ScriptError Bool)
  | .heard _ s => s.verdict?
  | _ => none

/-- A milestone that is about no judgement. -/
structure IsMum (m : Milestone) : Prop where
  verdict : m.verdict? = none
  judgement : m.isJudgement = false

end Milestone

/-- What the listeners of the run have heard that its condition was found to be. -/
def Run.verdict (x : Run) : Option (Except ScriptError Bool) :=
  x.log.findSome? Milestone.verdict?

theorem verdict?_of_mum {w : List Milestone} (hw : ∀ m ∈ w, m.IsMum) :
    w.findSome? Milestone.verdict? = none :=
  List.findSome?_eq_none_iff.mpr fun m hm => (hw m hm).verdict

theorem judgements_of_mum {w : List Milestone} (hw : ∀ m ∈ w, m.IsMum) :
    w.countP Milestone.isJudgement = 0 :=
  List.countP_eq_zero.mpr fun m hm => by rw [(hw m hm).judgement]; exact Bool.noConfusion

theorem verdict?_told {ls : List Listener} (hl : ls ≠ []) (y : Except ScriptError Bool)
    (w : List Milestone) :
    (ls.map (Milestone.heard · (.ofVerdict y)) ++ w).findSome? Milestone.verdict? = some y := by
  obtain ⟨l, rest, rfl⟩ := List.exists_cons_of_ne_nil hl
  simp [Milestone.verdict?, RunSignal.verdict?_ofVerdict]

/-! ## Turns in which nothing is judged -/

namespace Scene

variable {S S' S'' : Scene} {now : Nat}

/-- What is added to the log of the run is about no judgement. -/
def Mum (S S' : Scene) : Prop := ∃ w, S'.run.log = S.run.log ++ w ∧ ∀ m ∈ w, m.IsMum

theorem mum_of_log (h : S'.run.log = S.run.log) : S.Mum S' :=
  ⟨[], by rw [h, List.append_nil], fun _ hm => absurd hm List.not_mem_nil⟩

theorem Mum.trans (h : S.Mum S') (h' : S'.Mum S'') : S.Mum S'' := by
  obtain ⟨w, hw, hm⟩ := h
  obtain ⟨w', hw', hm'⟩ := h'
  exact ⟨w ++ w', by rw [hw', hw, List.append_assoc],
    fun m h => (List.mem_append.mp h).elim (hm m) (hm' m)⟩

variable (S)

theorem mum_mark {m : Milestone} (hm : m.IsMum) : S.Mum (S.mark m) :=
  ⟨[m], rfl, fun _ h => List.mem_singleton.mp h ▸ hm⟩

theorem mum_announce {s : RunSignal} (hs : s.verdict? = none) (ls : List Listener) :
    S.Mum (S.announce s ls) := by
  refine ⟨ls.map (.heard · s), rfl, fun m hm => ?_⟩
  obtain ⟨l, -, rfl⟩ := List.mem_map.mp hm
  exact ⟨hs, rfl⟩

theorem mum_record (now : Nat) (condition executed : Bool) (error : Option RuleError) :
    S.Mum (S.record now condition executed error) := S.mum_mark ⟨rfl, rfl⟩

theorem mum_begin (now : Nat) (ls : List Listener) : S.Mum (S.begin now ls) := by
  have hb : S.Mum { S with
      run := { S.run with started := now, audience := ls, log := S.run.log ++ [.began] } } :=
    ⟨[.began], rfl, fun _ h => List.mem_singleton.mp h ▸ ⟨rfl, rfl⟩⟩
  exact hb.trans (mum_announce _ rfl _)

theorem mum_breakOff (now : Nat) (m : String) : S.Mum (S.breakOff now m) := by
  have hm : S.Mum (S.mapRule Rule.markFailed) := mum_of_log rfl
  exact ((hm.trans (mum_announce _ rfl _)).trans (mum_record _ now _ _ _)).trans (mum_of_log rfl)

theorem conclude_number (now : Nat) (result : Except RuleError Json) :
    (S.conclude now result).number = S.number := by
  cases result <;> rfl

theorem mum_conclude (now : Nat) (result : Except RuleError Json) :
    S.Mum (S.conclude now result) := by
  have hc : S.Mum (S.mark .concluded) := S.mum_mark ⟨rfl, rfl⟩
  cases result with
  | ok v =>
    have hm : (S.mark .concluded).Mum ((S.mark .concluded).mapRule (attempted now true)) :=
      mum_of_log rfl
    exact ((((hc.trans hm).trans (mum_announce _ rfl _)).trans (mum_announce _ rfl _)).trans
      (mum_record _ now _ _ _)).trans (mum_of_log rfl)
  | error e =>
    have hm : (S.mark .concluded).Mum ((S.mark .concluded).mapRule (attempted now false)) :=
      mum_of_log rfl
    exact (((hc.trans hm).trans (mum_announce _ rfl _)).trans (mum_record _ now _ _ _)).trans
      (mum_of_log rfl)

theorem mum_forgo (now : Nat) : S.Mum (S.forgo now) :=
  ((mum_announce _ rfl _).trans (mum_record _ now _ _ _)).trans (mum_of_log rfl)

variable {S}

theorem Acts.mum (h : Acts now S S') : S.Mum S' := by
  have ha : S.Mum (S.mark .attempted) := S.mum_mark ⟨rfl, rfl⟩
  cases h with
  | unread e => exact ha.trans (mum_conclude _ _ _)
  | acting e => exact ha.trans (mum_of_log rfl)

end Scene

namespace Engine

variable {E E' E'' E₁ : Engine} {C C' : Core} {S S' : Scene} {r : Nat}

/-- What is added to the log of the run is about no judgement. -/
def Mum (r : Nat) (E E' : Engine) : Prop :=
  ∃ w, (E'.runAt r).log = (E.runAt r).log ++ w ∧ ∀ m ∈ w, m.IsMum

theorem Mute.mum (h : E.Mute E') (r : Nat) : Mum r E E' :=
  ⟨[], by rw [h.logs r, List.append_nil], fun _ hm => absurd hm List.not_mem_nil⟩

theorem Mum.trans (h : Mum r E E') (h' : Mum r E' E'') : Mum r E E'' := by
  obtain ⟨w, hw, hm⟩ := h
  obtain ⟨w', hw', hm'⟩ := h'
  exact ⟨w ++ w', by rw [hw', hw, List.append_assoc],
    fun m h => (List.mem_append.mp h).elim (hm m) (hm' m)⟩

/-- Of an engine in the middle of a turn, the scene tells. -/
theorem At.mum (h : E.At C S) (h' : E'.At C' S') (hn : S'.number = S.number) (hm : S.Mum S') :
    Mum S.number E E' := by
  have hr' := h'.runAt
  rw [hn] at hr'
  unfold Mum
  rw [hr', h.runAt]
  exact hm

/-- How a turn of a run goes that may lead to a judgement: nothing is judged, or the turn ends with
judging the condition. -/
inductive Opens (r : Nat) (E E' : Engine) : Prop
  | mum (h : Mum r E E')
  | judges {E₁ : Engine} {C : Core} {S : Scene} (hat : E₁.At C S) (hn : S.number = r)
    (hd : (E₁.ruleOf r).definition = (E.ruleOf r).definition) (hev : E₁.evaluator = E.evaluator)
    (hm : Mum r E E₁) (hE : E' = E₁.judge r)

theorem Opens.after (h : Opens r E₁ E') (hm : Mum r E E₁)
    (hd : (E₁.ruleOf r).definition = (E.ruleOf r).definition) (hev : E₁.evaluator = E.evaluator) :
    Opens r E E' := by
  cases h with
  | mum h => exact .mum (hm.trans h)
  | judges hat hn hd' hev' hm' hE =>
    exact .judges hat hn (hd'.trans hd) (hev'.trans hev) (hm.trans hm') hE

theorem opens_finish (h : E.Mute E') (o : Outcome) : Opens r E (E'.finish r o) :=
  .mum ((h.trans (still_finish E' r o).toMute).mum r)

theorem evaluator_ask (r : Nat) : ∀ (ls : List Listener) (E : Engine),
    (E.ask r ls).1.evaluator = E.evaluator := by
  intro ls
  induction ls with
  | nil => intro E; rfl
  | cons l rest ih =>
    intro E
    unfold ask
    dsimp only
    split
    · split
      · rfl
      · split
        · rfl
        · rw [ih]
          rfl
    · rw [ih]
      rfl

theorem evaluator_foldl {α : Type} {f : Engine → α → Engine}
    (hf : ∀ E a, (f E a).evaluator = E.evaluator) :
    ∀ (xs : List α) (E : Engine), (xs.foldl f E).evaluator = E.evaluator := by
  intro xs
  induction xs with
  | nil => intro E; rfl
  | cons x rest ih => intro E; rw [List.foldl_cons, ih, hf]

theorem evaluator_showFacts (E : Engine) (r : Nat) : (E.showFacts r).evaluator = E.evaluator :=
  evaluator_foldl (α := Fact) (f := fun E f =>
    E.say (.fact (E.ruleOf r).id (f.display E.settings.factWidth.toNat))) (fun _ _ => rfl) _ E

theorem opens_start (h : E.At C S) : Opens S.number E (E.start S.number) := by
  unfold start
  rw [h.ruleOf]
  dsimp only
  split
  · exact opens_finish (E.still_notice _).toMute _
  · obtain ⟨ha, -⟩ := h.begin rfl
    have hev := evaluator_ask S.number ((E.modifyRun S.number fun x =>
      { x with started := E.now, audience := E.listeners }).mark S.number .began).listeners
      ((E.modifyRun S.number fun x =>
        { x with started := E.now, audience := E.listeners }).mark S.number .began)
    have hb := S.mum_begin C.now C.listeners
    split
    · next E' m he =>
      rw [he] at ha
      exact .mum (h.mum (ha.breakOff m) rfl (hb.trans (Scene.mum_breakOff _ _ _)))
    · next E' he =>
      rw [he] at ha
      exact .mum ((h.mum ha rfl hb).trans
        (((still_notice _ _).trans (still_finish _ S.number _)).toMute.mum _))
    · next E' he =>
      rw [he] at ha hev
      refine .judges ha rfl ?_ (hev.trans rfl) (h.mum ha rfl hb) rfl
      exact (congrArg (·.definition) ha.ruleOf).trans (congrArg (·.definition) h.ruleOf.symm)

theorem opens_hold (h : E.At C S) (slot : Slot Nat) :
    Opens S.number E ((E.hold S.number slot).start S.number) := by
  have hh := h.hold slot
  refine (opens_start hh).after ((E.mute_hold S.number slot).mum _) ?_ rfl
  exact (congrArg (·.definition) hh.ruleOf).trans (congrArg (·.definition) h.ruleOf.symm)

theorem opens_claim (h : E.At C S) : Opens S.number E (E.claim S.number) := by
  unfold claim
  dsimp only
  split
  · exact opens_finish (.refl E) _
  · split
    · exact opens_hold h _
    · split
      · exact opens_finish (E.still_notice _).toMute _
      · exact .mum (((E.mute_modifyInstance _ _).trans (still_setStage _ _ _).toMute).mum _)

theorem opens_arrive (h : E.At C S) : Opens S.number E (E.arrive S.number) := by
  have hm : E.Mute (E.modifyRuleOf S.number (·.recordFact E.now (E.runAt S.number).trigger.node
      (E.runAt S.number).trigger.name (E.runAt S.number).trigger.value)) := mute_of_same rfl rfl
  have ha := hm.trans (mute_modifyRun _ S.number (f := fun x => { x with admitted := true })
    fun _ => rfl)
  have hat := (h.modifyRuleOf (·.recordFact E.now (E.runAt S.number).trigger.node
    (E.runAt S.number).trigger.name (E.runAt S.number).trigger.value)).modifyRun
    (fun x => { x with admitted := true }) rfl
  unfold arrive
  dsimp only
  split
  · exact opens_finish (E.still_notice _).toMute _
  · split
    · exact opens_finish (E.still_notice _).toMute _
    · split
      · refine (opens_claim hat).after (ha.mum _) ?_ rfl
        exact (congrArg (·.definition) hat.ruleOf).trans (congrArg (·.definition) h.ruleOf.symm)
      · exact .mum ((ha.trans (mute_defer _ _)).mum _)

theorem opens_wakeDeferred (h : E.At C S) (g due : Nat) (cancelled second : Bool) :
    Opens S.number E (E.wakeDeferred S.number g due cancelled second) := by
  have hm : E.Mute (E.modifyRuleOf S.number (·.finishPending g)) := mute_of_same rfl rfl
  have hat := h.modifyRuleOf (·.finishPending g)
  unfold wakeDeferred
  split
  · refine (opens_claim hat).after (hm.mum _) ?_ rfl
    have hd : (S.mapRule (·.finishPending g)).rule.definition = S.rule.definition := by
      simp only [Scene.mapRule, Instance.mapRule, Rule.finishPending_eq]
    exact ((congrArg (·.definition) hat.ruleOf).trans hd).trans
      (congrArg (·.definition) h.ruleOf.symm)
  · split
    · exact .mum (((E.still_notice _).trans (still_setStage _ _ _)).toMute.mum _)
    · exact .mum ((Mute.refl E).mum _)

theorem opens_wakeWaiting (h : E.At C S) (second : Bool) :
    Opens S.number E (E.wakeWaiting S.number second) := by
  unfold wakeWaiting
  dsimp only
  split
  · exact opens_hold h _
  · split
    · exact opens_finish ((E.mute_modifyInstance _ _).trans (still_notice _ _).toMute) _
    · split
      · exact .mum ((E.mute_modifyInstance _ _).mum _)
      · exact .mum ((Mute.refl E).mum _)

theorem mum_wakeDelayed (h : E.At C S) (due : Nat) (second : Bool) :
    Mum S.number E (E.wakeDelayed S.number due second) := by
  unfold wakeDelayed
  dsimp only
  split
  · obtain ⟨S', ha, hE⟩ := h.act
    exact h.mum hE (ha.follows.number) ha.mum
  · split
    · exact h.mum h.forgo rfl (S.mum_forgo _)
    · exact (Mute.refl E).mum _

/-- **In a turn of a run nothing is judged, unless the turn ends with that.** -/
theorem opens_performRun (h : E.At C S) (second : Bool) :
    Opens S.number E (E.performRun S.number second) := by
  have hrest : Opens S.number E E := .mum ((Mute.refl E).mum _)
  unfold performRun
  split
  · exact hrest
  · split
    · exact opens_arrive h
    · exact opens_wakeDeferred h _ _ _ second
    · exact opens_wakeWaiting h second
    · exact .mum (mum_wakeDelayed h _ second)
    · split
      · obtain ⟨result, hE⟩ := h.expire _
        exact .mum (h.mum hE (Scene.conclude_number _ _ _)
          (S.mum_conclude _ _))
      · exact hrest
    · exact hrest

/-! ## Judging -/

/-- The evaluation of a condition begins if its text can be read. -/
theorem evaluate_condition (E : Engine) (r : Nat) (text : String) :
    (∀ e, (E.evaluator.compile text).2 = .error e → (E.evaluate r .condition text).2 = .error e) ∧
      ∀ t, (E.evaluator.compile text).2 = .ok t →
        (E.evaluate r .condition text).2 = .ok E.evaluations.length := by
  unfold evaluate Evaluator.start
  have hp : (Purpose.condition == Purpose.action && false) = false := rfl
  rw [hp]
  cases hc : E.evaluator.compile text with
  | mk ev x => cases x <;> simp [Except.map]

/-- A judgement is told before anything else happens. -/
structure Tells (E : Engine) (S : Scene) (y : Except ScriptError Bool) : Prop where
  audience : (E.runAt S.number).audience = S.run.audience
  log : ∃ w, (E.runAt S.number).log
    = S.run.log ++ S.run.audience.map (.heard · (.ofVerdict y)) ++ w

theorem At.tells {y : Except ScriptError Bool} (hE : E.At C S')
    (hf : (S.tell (.ofVerdict y)).Follows C.now S') (ha : S'.run.audience = S.run.audience) :
    E.Tells S y := by
  have hr : E.runAt S.number = S'.run := hf.number ▸ hE.runAt
  obtain ⟨w, hw, -, -⟩ := hf.log
  exact ⟨(congrArg Run.audience hr).trans ha, w, (congrArg Run.log hr).trans hw⟩

theorem tells_decideOn (h : E.At C S) (y : Except ScriptError Bool) :
    (E.decideOn S.number y).Tells S y := by
  rcases y with e | (_ | _)
  · have hE : (E.decideOn S.number (.error e)).At C (S.misjudge C.now e) :=
      ((((h.notice _).tell _).tell _).record _ _ _).finish _
    exact hE.tells (((Scene.follows_tell _ _).trans (Scene.follows_record _ _ _ _)).trans
      (Scene.follows_finish _ _)) rfl
  · have hE : (E.decideOn S.number (.ok false)).At C (S.decline C.now) :=
      (((h.tell _).tell _).record _ _ _).finish _
    exact hE.tells (((Scene.follows_tell _ _).trans (Scene.follows_record _ _ _ _)).trans
      (Scene.follows_finish _ _)) rfl
  · obtain ⟨S', hp, hE⟩ := (h.tell (.afterEvaluate true)).proceed
    exact hE.tells hp.follows (Scene.Decides.proceeds hp).audience

/-- The condition of a run is judged, or is about to be. -/
structure Judges (E : Engine) (r : Nat) (E' : Engine) : Prop where
  /-- If the text can be read, the evaluation has yet to be heard of. -/
  read : ∀ t, (E.evaluator.compile (E.ruleOf r).definition.condition).2 = .ok t →
    (E'.runAt r).log = (E.runAt r).log ++ [.judged]
  unread : ∀ e, (E.evaluator.compile (E.ruleOf r).definition.condition).2 = .error e →
    ∃ w, (E'.runAt r).log = (E.runAt r).log ++ [.judged] ++
      (E'.runAt r).audience.map (.heard · (.ofVerdict (.error e))) ++ w

/-- The engine when the evaluation of a condition begins. -/
def posed (E : Engine) (r : Nat) : Engine :=
  ((E.mark r .judged).showFacts r).modifyRuleOf r Rule.markEvaluated

theorem judge_posed (E : Engine) (r : Nat) :
    E.judge r = match (E.posed r).evaluate r .condition ((E.posed r).ruleOf r).definition.condition with
      | (E, .error e) => E.decideOn r (.error e)
      | (E, .ok e) => (E.setStage r (.judging e)).goOn (.script e) := rfl

theorem judges_judge (h : E.At C S) : Judges E S.number (E.judge S.number) := by
  have hm : (E.posed S.number).At C S.judge :=
    ((h.mark .judged).showFacts).modifyRuleOf Rule.markEvaluated
  have hd : ((E.posed S.number).ruleOf S.number).definition = (E.ruleOf S.number).definition :=
    (congrArg (·.definition) hm.ruleOf).trans (congrArg (·.definition) h.ruleOf.symm)
  have hev : (E.posed S.number).evaluator = E.evaluator := evaluator_showFacts _ _
  have hj := E.judge_posed S.number
  obtain ⟨hno, hyes⟩ := (E.posed S.number).evaluate_condition S.number
    ((E.posed S.number).ruleOf S.number).definition.condition
  rw [hd, hev] at hno hyes
  rw [hd] at hj
  split at hj
  · next E' e' he =>
    rw [he] at hno hyes
    constructor
    · intro t ht
      cases hyes t ht
    · intro e hc
      cases hno e hc
      have ht := tells_decideOn (hm.evaluate he) (.error e')
      obtain ⟨w, hw⟩ := ht.log
      have ha : ((E'.decideOn S.number (.error e')).runAt S.number).audience = S.run.audience :=
        ht.audience
      rw [hj, ha, h.runAt]
      exact ⟨w, hw⟩
  · next E' e' he =>
    rw [he] at hno hyes
    constructor
    · intro t ht
      have hE := (hm.evaluate he).setStage (.judging e')
      have hr : (((E'.setStage S.number (.judging e')).goOn (.script e')).runAt S.number).log
        = S.run.log ++ [.judged] := congrArg Run.log hE.runAt
      rw [hj, hr, h.runAt]
    · intro e hc
      cases hno e hc

/-! ## What the evaluation returns -/

/-- In a step, the evaluator has returned what the condition of a run was found to be. A condition
that breaks off returns nothing. -/
inductive Finds (E E' : Engine) (r : Nat) : Except ScriptError Bool → Prop
  /-- The text of the condition could not be read. -/
  | unread {second : Bool} {e : ScriptError} (hE : E' = E.turn (.run r) second)
    (hj : (E.runAt r).judgements < (E'.runAt r).judgements)
    (he : (E.evaluator.compile (E.ruleOf r).definition.condition).2 = .error e) :
    Finds E E' r (.error e)
  /-- The script has come to its end. -/
  | ended {second : Bool} {e : Nat} {v : Except Script.Fault Script.Value}
    (hj : Job.script e ∈ E.ready) (hE : E' = E.turn (.script e) second)
    (hr : (E.evaluationAt e).run = r) (hs : (E.runAt r).stage = .judging e)
    (hv : (E.evaluationAt e).state = .running (.done v)) :
    Finds E E' r (conditionTruth (E.evaluationAt e).text (E.evaluationAt e).cancelled v)

/-- What comes of a turn of a run that may judge the condition. -/
theorem Opens.outcome (h : Opens r E E') :
    Mum r E E' ∨ (E.runAt r).judgements < (E'.runAt r).judgements ∧ ∃ w : List Milestone,
      w.findSome? Milestone.verdict? = none ∧
      ((∀ t, (E.evaluator.compile (E.ruleOf r).definition.condition).2 = .ok t →
          (E'.runAt r).log = (E.runAt r).log ++ w) ∧
        ∀ e, (E.evaluator.compile (E.ruleOf r).definition.condition).2 = .error e →
          ∃ w', (E'.runAt r).log = (E.runAt r).log ++ (w ++
            (E'.runAt r).audience.map (.heard · (.ofVerdict (.error e))) ++ w')) := by
  cases h with
  | mum h => exact .inl h
  | @judges E₁ C S hat hn hd hev hm hE =>
    obtain ⟨w, hw, hmum⟩ := hm
    have hj : Judges E₁ r E' := hE ▸ hn ▸ judges_judge hat
    have hread := hj.read
    have hunread := hj.unread
    have hone : [Milestone.judged].countP Milestone.isJudgement = 1 := rfl
    rw [hev, hd, hw] at hread hunread
    refine .inr ⟨?_, w ++ [.judged], ?_, fun t ht => ?_, fun e he => ?_⟩
    · cases hc : (E.evaluator.compile (E.ruleOf r).definition.condition).2 with
      | ok t =>
        rw [Run.judgements, Run.judgements, hread t hc]
        simp only [List.countP_append, hone]
        omega
      | error e =>
        obtain ⟨w', hl⟩ := hunread e hc
        rw [Run.judgements, Run.judgements, hl]
        simp only [List.countP_append, hone]
        omega
    · rw [List.findSome?_append, verdict?_of_mum hmum]
      rfl
    · rw [hread t ht, List.append_assoc]
    · obtain ⟨w', hl⟩ := hunread e he
      exact ⟨w', by rw [hl]; simp only [List.append_assoc]⟩

theorem opens_turn (hv : E.core.Valid) (hr : r < E.runs.length) (hj : Job.run r ∈ E.ready)
    (second : Bool) : Opens r E (E.turn (.run r) second) := by
  have hat : ({ E with ready := E.ready.erase (.run r) } : Engine).At E.core (E.core.scene r) :=
    (At.scene (E := E) hr (hv.run _ hr)).quiet rfl
  have ho : Opens r { E with ready := E.ready.erase (.run r) } (E.turn (.run r) second) := by
    unfold turn
    rw [if_pos (List.contains_iff_mem.mpr hj)]
    exact opens_performRun hat second
  exact ho.after ((mute_of_same rfl rfl).mum r) rfl rfl

/-! ### Evaluations that come to their end -/

section Scripts

open Script (Fault Value)

theorem At.asked (hv : E.core.Valid) {s : Stage} (hs : (E.runAt r).stage = s) (hne : s ≠ .arriving) :
    E.At E.core (E.core.scene r) :=
  have hr : r < E.runs.length := lt_of_stage (hs ▸ hne)
  .scene hr (hv.run _ hr)

theorem concludeScript_judging (E : Engine) {e : Nat}
    (hs : (E.runAt (E.evaluationAt e).run).stage = .judging e) (v : Except Fault Value) :
    E.concludeScript e (.ok v) = (E.setEvaluation e .ended).decideOn (E.evaluationAt e).run
      (conditionTruth (E.evaluationAt e).text (E.evaluationAt e).cancelled v) := by
  have hs' : ((E.setEvaluation e .ended).runAt (E.evaluationAt e).run).stage = .judging e := hs
  unfold concludeScript
  simp only [hs', beq_self_eq_true, if_true]

/-- An evaluation that breaks off, or is that of an action, ends without a judgement. -/
theorem mum_concludeScript (hv : E.core.Valid) {e : Nat} (ha : E.Asks e r)
    {result : Except String (Except Fault Value)}
    (hres : (E.runAt r).stage = .judging e → ∃ m, result = .error m) :
    Mum r E (E.concludeScript e result) := by
  have hm : Mum r E (E.setEvaluation e .ended) := (E.still_setEvaluation e _).toMute.mum r
  have hc : (E.setEvaluation e .ended).core = E.core := rfl
  unfold concludeScript
  dsimp only
  rw [ha.run]
  refine hm.trans ?_
  split
  · next e' hs =>
    have hat := At.asked (hc ▸ hv) hs Stage.noConfusion
    split
    · next he =>
      obtain ⟨m, rfl⟩ := hres (beq_iff_eq.mp he ▸ hs)
      exact hat.mum (hat.breakOff m) rfl (Scene.mum_breakOff _ _ _)
    · exact (Mute.refl _).mum r
  · next e' d hs =>
    have hat := At.asked (hc ▸ hv) hs Stage.noConfusion
    split
    · cases result with
      | error m =>
        exact hat.mum (hat.conclude _) (Scene.conclude_number _ _ _)
          (Scene.mum_conclude _ _ _)
      | ok v =>
        exact hat.mum (hat.conclude _) (Scene.conclude_number _ _ _)
          (Scene.mum_conclude _ _ _)
    · exact (Mute.refl _).mum r
  · exact (Mute.refl _).mum r

end Scripts

/-! ### Steps -/

theorem turn_of_mem {j : Job} (hj : j ∈ E.ready) (second : Bool) :
    E.turn j second = { E with ready := E.ready.erase j }.perform j second :=
  if_pos (List.contains_iff_mem.mpr hj)

theorem turn_of_not_mem {j : Job} (hj : j ∉ E.ready) (second : Bool) : E.turn j second = E :=
  if_neg fun h => hj (List.contains_iff_mem.mp h)

/-- A run in whose turn something is judged is there, and was ready. -/
theorem judges_ready {second : Bool}
    (hj : (E.runAt r).judgements < ((E.turn (.run r) second).runAt r).judgements) :
    Job.run r ∈ E.ready ∧ r < E.runs.length := by
  have hmem : Job.run r ∈ E.ready := by
    by_contra hn
    rw [turn_of_not_mem hn] at hj
    exact Nat.lt_irrefl _ hj
  refine ⟨hmem, ?_⟩
  by_contra hr
  have hnone : ({ E with ready := E.ready.erase (.run r) } : Engine).runs[r]? = none :=
    List.getElem?_eq_none (Nat.le_of_not_lt hr)
  rw [turn_of_mem hmem] at hj
  simp only [perform, performRun, hnone] at hj
  exact Nat.lt_irrefl _ hj

/-- Whatever has been returned is told to all. -/
theorem Finds.told {y : Except ScriptError Bool} (h : Finds E E' r y) (hv : E.core.Valid) :
    ∃ w w' : List Milestone, w.findSome? Milestone.verdict? = none ∧
      (E'.runAt r).log = (E.runAt r).log ++ (w ++
        (E'.runAt r).audience.map (.heard · (.ofVerdict y)) ++ w') := by
  cases h with
  | @unread second e hE hj he =>
    subst hE
    obtain ⟨hmem, hr⟩ := judges_ready hj
    rcases (opens_turn hv hr hmem second).outcome with ⟨w, hw, hmum⟩ | ⟨-, w, hw, -, hun⟩
    · rw [Run.judgements, Run.judgements, hw, List.countP_append, judgements_of_mum hmum] at hj
      exact absurd hj (Nat.lt_irrefl _)
    · obtain ⟨w', hl⟩ := hun e he
      exact ⟨w, w', hw, hl⟩
  | @ended second e v hj hE hr hs hst =>
    subst hE hr
    have hturn : E.turn (.script e) second
        = (({ E with ready := E.ready.erase (.script e) } : Engine).setEvaluation e .ended).decideOn
          (E.evaluationAt e).run
          (conditionTruth (E.evaluationAt e).text (E.evaluationAt e).cancelled v) := by
      have hst' : (({ E with ready := E.ready.erase (.script e) } : Engine).evaluationAt e).state
          = .running (.done v) := hst
      rw [turn_of_mem hj, perform, performScript]
      simp only [hst']
      exact concludeScript_judging { E with ready := E.ready.erase (.script e) } hs v
    have hat : (({ E with ready := E.ready.erase (.script e) } : Engine).setEvaluation e .ended).At
        E.core (E.core.scene (E.evaluationAt e).run) := (At.asked hv hs Stage.noConfusion).quiet rfl
    have ht := tells_decideOn hat
      (conditionTruth (E.evaluationAt e).text (E.evaluationAt e).cancelled v)
    obtain ⟨w, hw⟩ := ht.log
    have ha := ht.audience
    rw [hturn]
    refine ⟨[], w, rfl, ?_⟩
    rw [List.nil_append, ← List.append_assoc]
    refine hw.trans ?_
    rw [← ha]
    rfl

/-- If nothing is returned, listeners hear of no judgement. -/
theorem Step.returns (h : Step E E') (hv : E.core.Valid) (r : Nat) :
    (E.gained E' r).findSome? Milestone.verdict? = none ∨ ∃ y, Finds E E' r y := by
  have hsame : (E'.runAt r).log = (E.runAt r).log →
      (E.gained E' r).findSome? Milestone.verdict? = none := fun hl => by
    rw [gained_of_eq hl]
    rfl
  have hmum : Mum r E E' → (E.gained E' r).findSome? Milestone.verdict? = none := by
    rintro ⟨w, hw, hm⟩
    rw [gained_of_append hw]
    exact verdict?_of_mum hm
  rcases h.turn_or_silent with ⟨j, second, rfl⟩ | hl
  · cases E.utters_turn j second with
    | quiet hm => exact .inl (hsame (hm.logs r))
    | @speaks m hp hs =>
      by_cases hr : r = m
      · subst hr
        obtain ⟨hlt, hmem, rfl | ⟨e, rfl, ha⟩⟩ := hp
        · rcases (opens_turn hv hlt hmem second).outcome with hm | ⟨hj, w, hw, hread, -⟩
          · exact .inl (hmum hm)
          · cases hc : (E.evaluator.compile (E.ruleOf r).definition.condition).2 with
            | ok t => exact .inl (by rw [gained_of_append (hread t hc), hw])
            | error e => exact .inr ⟨_, .unread rfl hj hc⟩
        · have hE := turn_of_mem hmem second
          rcases ({ E with ready := E.ready.erase (.script e) } : Engine).performScript_mute_or_completes e
            with hm | ⟨result, hcomp⟩
          · exact .inl (hsame (hE ▸ hm.logs r))
          · obtain ⟨E₁, hm, hc, he, hE'⟩ := hcomp.ends
            by_cases hres : ∃ v, result = .ok v ∧ (E.runAt r).stage = .judging e
            · obtain ⟨v, rfl, hs⟩ := hres
              exact .inr ⟨_, .ended hmem rfl ha.run hs (hcomp.value v rfl)⟩
            · have hruns : E₁.runAt r = E.runAt r := congrArg (·.runAt r) hc
              have ha' : E₁.Asks e r := ⟨(congrArg Evaluation.run he).trans ha.run, hruns ▸ ha.stage⟩
              have hmum' : Mum r E₁ (E₁.concludeScript e result) := by
                refine mum_concludeScript (hc ▸ hv) ha' fun hs => ?_
                cases result with
                | error m => exact ⟨m, rfl⟩
                | ok v => exact absurd ⟨v, rfl, hruns ▸ hs⟩ hres
              have hm₁ : Mum r E E₁ := hm.mum r
              have hturn : E.turn (.script e) second = E₁.concludeScript e result := hE.trans hE'
              exact .inl (hmum (hturn ▸ hm₁.trans hmum'))
      · exact .inl (hsame (hs.others r hr))
  · exact .inl (hsame (hl r))

/-- **In every step, listeners hear of a judgement exactly if it has been returned.** -/
theorem Step.verdict_iff (h : Step E E') (hv : E.core.Valid) (ha : (E'.runAt r).audience ≠ [])
    (y : Except ScriptError Bool) :
    (E.gained E' r).findSome? Milestone.verdict? = some y ↔ Finds E E' r y := by
  have htold : ∀ {z}, Finds E E' r z → (E.gained E' r).findSome? Milestone.verdict? = some z := by
    intro z hz
    obtain ⟨w, w', hw, hl⟩ := hz.told hv
    rw [gained_of_append hl, List.append_assoc, List.findSome?_append, hw, Option.none_or]
    exact verdict?_told ha z w'
  refine ⟨fun hg => ?_, htold⟩
  rcases h.returns hv r with hn | ⟨z, hz⟩
  · rw [hn] at hg
    cases hg
  · obtain rfl : z = y := Option.some.inj ((htold hz).symm.trans hg)
    exact hz

end Engine

/-! ## Courses -/

namespace Start

theorem mum_told (F : Start) {s : RunSignal} (hs : s.verdict? = none) :
    ∀ m ∈ F.told s, m.IsMum := by
  intro m hm
  obtain ⟨l, -, rfl⟩ := List.mem_map.mp hm
  exact ⟨hs, rfl⟩

theorem mum_opening (F : Start) : ∀ m ∈ F.opening, m.IsMum := by
  intro m hm
  rcases List.mem_cons.mp hm with rfl | hm
  · exact ⟨rfl, rfl⟩
  · obtain ⟨l, -, rfl⟩ := List.mem_map.mp hm
    exact ⟨rfl, rfl⟩

theorem judgements_judging (F : Start) : F.judging.countP Milestone.isJudgement = 1 := by
  rw [judging, List.countP_append, judgements_of_mum F.mum_opening]
  rfl

theorem judgements_standing (F : Start) : F.standing.countP Milestone.isJudgement = 1 := by
  rw [standing, List.countP_append, List.countP_append, judgements_judging,
    countP_told _ Milestone.silent_isJudgement, countP_told _ Milestone.silent_isJudgement]

theorem judgements_acting (F : Start) : F.acting.countP Milestone.isJudgement = 1 := by
  rw [acting, List.countP_append, judgements_standing]
  rfl

theorem verdict_judging (F : Start) : F.judging.findSome? Milestone.verdict? = none := by
  rw [judging, List.findSome?_append, verdict?_of_mum F.mum_opening]
  rfl

/-- What a run that has ended has heard of its judgement. -/
theorem Closes.judgements {F : Start} {d : Definition} {log : List Milestone} {o : Outcome}
    (h : F.Closes d log o) : log.countP Milestone.isJudgement = 1 ∨ ∀ m ∈ log, m.IsMum := by
  cases h with
  | dropped why => exact .inr fun _ hm => absurd hm List.not_mem_nil
  | vetoed hv => exact .inr F.mum_opening
  | broke now hv =>
    refine .inr fun m hm => ?_
    rcases List.mem_append.mp hm with hm | hm
    · exact (List.mem_append.mp hm).elim (F.mum_opening m) (F.mum_told rfl m)
    · exact List.mem_singleton.mp hm ▸ ⟨rfl, rfl⟩
  | @ended w o condition executed error now hv hw =>
    refine .inl ?_
    rw [List.countP_append, List.countP_append, judgements_judging,
      countP_course _ Milestone.silent_isJudgement]
    cases executed <;> rfl

end Start

/-- The condition of a run is judged at most once, and before that nobody hears of a judgement. -/
theorem Run.Accounts.judgements {d : Definition} {x : Run} (h : x.Accounts d) :
    x.judgements = 1 ∨ ∀ m ∈ x.log, m.IsMum := by
  have hnil : x.log = [] → ∀ m ∈ x.log, m.IsMum := fun hl m hm => by
    rw [hl] at hm
    cases hm
  unfold Accounts at h
  cases hs : x.stage with
  | judging e => rw [hs] at h; exact .inl (by rw [Run.judgements, h.2, Start.judgements_judging])
  | delayed due => rw [hs] at h; exact .inl (by rw [Run.judgements, h.2, Start.judgements_standing])
  | acting e dl => rw [hs] at h; exact .inl (by rw [Run.judgements, h.2, Start.judgements_acting])
  | ended e =>
    cases e with
    | outcome o => rw [hs] at h; exact Start.Closes.judgements h
    | cancelled => rw [hs] at h; exact .inr (hnil h)
    | abandoned =>
      rw [hs] at h
      rcases h with hl | ⟨-, hl | hl⟩
      · exact .inr (hnil hl)
      · exact .inl (by rw [Run.judgements, hl, Start.judgements_standing])
      · exact .inl (by rw [Run.judgements, hl, Start.judgements_acting])
  | _ => rw [hs] at h; exact .inr (hnil h)

namespace Engine

variable {E E' : Engine} {r : Nat}

theorem Step.log (h : Step E E') (hv : E.core.Valid) (r : Nat) :
    (E'.runAt r).log = (E.runAt r).log ++ E.gained E' r := by
  by_cases hr : r < E.runs.length
  · obtain ⟨w, hw⟩ := (((h.core hv).follows hv).run r hr).log
    have hw' : (E'.runAt r).log = (E.runAt r).log ++ w := hw.symm
    rw [gained_of_append hw', hw']
  · have hx : (E.runAt r).log = [] :=
      congrArg Run.log (Core.runAt_of_le (C := E.core) (Nat.le_of_not_lt hr))
    rw [gained, hx]
    rfl

/-- The condition of any run is judged at most once, and before that nobody hears of a judgement. -/
theorem Reachable.judgements (hE : E.Reachable) (r : Nat) :
    (E.runAt r).judgements = 1 ∨ ∀ m ∈ (E.runAt r).log, m.IsMum := by
  by_cases hr : r < E.runs.length
  · exact (hE.accounts r hr).judgements
  · refine .inr fun m hm => ?_
    rw [show E.runAt r = default from Core.runAt_of_le (C := E.core) (Nat.le_of_not_lt hr)] at hm
    cases hm

/-- What is returned is returned to a run that has begun, and of whose judgement nobody has heard. -/
theorem Finds.first {y : Except ScriptError Bool} (h : Finds E E' r y) (hE : E.Reachable)
    (hE' : E'.Reachable) : (E.runAt r).verdict = none ∧ (E'.runAt r).log ≠ [] := by
  obtain ⟨w, w', -, hl⟩ := h.told hE.valid
  cases h with
  | unread hE₁ hj he =>
    refine ⟨?_, fun hnil => ?_⟩
    · rcases hE.judgements r with h1 | hm
      · rcases hE'.judgements r with h1' | hm'
        · omega
        · rw [h1, Run.judgements, judgements_of_mum hm'] at hj
          exact absurd hj (Nat.not_lt_zero _)
      · exact verdict?_of_mum hm
    · rw [Run.judgements, Run.judgements, hnil] at hj
      exact Nat.not_lt_zero _ hj
  | @ended second e v hj hE₁ hr hs hst =>
    have ha := hE.accounts r (lt_of_stage (hs ▸ Stage.noConfusion))
    unfold Run.Accounts at ha
    rw [show (E.core.runAt r).stage = .judging e from hs] at ha
    have hlog : (E.runAt r).log = (E.runAt r).start.judging := ha.2
    refine ⟨by rw [Run.verdict, hlog, Start.verdict_judging], fun hnil => ?_⟩
    rw [hl, hlog] at hnil
    cases hnil

/-- A run that has begun keeps its listeners. -/
theorem Steps.audience (h : Steps E E') (hE : E.Reachable) (hb : (E.runAt r).hasBegun = true) :
    (E'.runAt r).audience = (E.runAt r).audience := by
  have hinv : E'.core.Accounts ∧ (E'.runAt r).hasBegun = true ∧
      (E'.runAt r).audience = (E.runAt r).audience :=
    h.induction (P := fun C => C.Accounts ∧ (C.runAt r).hasBegun = true ∧
      (C.runAt r).audience = (E.runAt r).audience) hE ⟨hE.accounts, hb, rfl⟩ ?_
  · exact hinv.2.2
  · rintro C C' hv ⟨ha, hb, haud⟩ hs
    refine ⟨ha.step hv hs, ?_, (hs.audience_kept ha hb).trans haud⟩
    obtain ⟨w, hw⟩ := ((hs.follows hv).run r (Core.hasBegun_lt hb)).log
    unfold Run.hasBegun at hb ⊢
    rw [← hw, List.any_append, hb, Bool.true_or]

/-- **The listeners of a run, if there are any, have heard of a judgement exactly if the evaluator has
returned it.** -/
theorem Trail.verdict_iff {E : Nat → Engine} {last : Nat} (h : Trail E last) {r : Nat}
    (ha : ((E last).runAt r).audience ≠ []) (y : Except ScriptError Bool) :
    ((E last).runAt r).verdict = some y ↔ ∃ k < last, Finds (E k) (E (k + 1)) r y := by
  -- from its start on, the run has the listeners that it has in the end
  have haud : ∀ k ≤ last, ((E k).runAt r).log ≠ [] → ((E k).runAt r).audience ≠ [] := by
    intro k hk hne
    have hE := h.reachable hk
    have hlt : r < (E k).runs.length := by
      by_contra hr
      exact hne (congrArg Run.log (Core.runAt_of_le (C := (E k).core) (Nat.le_of_not_lt hr)))
    have hb := (hE.accounts r hlt).log_nil_or_hasBegun.resolve_left hne
    rw [← (h.steps hk (Nat.le_refl last)).audience hE hb]
    exact ha
  have hk : ∀ k ≤ last, ((E k).runAt r).verdict = some y ↔
      ∃ j < k, Finds (E j) (E (j + 1)) r y := by
    intro k hk
    induction k with
    | zero =>
      obtain ⟨_, _, _, _, _, _, h0⟩ := h.fresh
      have hn : ((E 0).runAt r).verdict = none := by rw [h0]; rfl
      rw [hn]
      exact ⟨fun h => (by cases h), fun ⟨j, hj, _⟩ => absurd hj (Nat.not_lt_zero j)⟩
    | succ k ih =>
      have hk' := Nat.le_of_succ_le hk
      have hE := h.reachable hk'
      have hE' := h.reachable hk
      have hs := h.step k hk
      have hv : ((E (k + 1)).runAt r).verdict = ((E k).runAt r).verdict.or
          (((E k).gained (E (k + 1)) r).findSome? Milestone.verdict?) := by
        rw [Run.verdict, hs.log hE.valid r, List.findSome?_append]
        rfl
      have hstep : ((E k).gained (E (k + 1)) r).findSome? Milestone.verdict? = some y →
          Finds (E k) (E (k + 1)) r y := fun hg => by
        have hne : ((E (k + 1)).runAt r).log ≠ [] := fun hnil => by
          rw [gained, hnil, List.drop_nil] at hg
          cases hg
        exact (hs.verdict_iff hE.valid (haud _ hk hne) y).mp hg
      constructor
      · intro hy
        rw [hv] at hy
        cases hold : ((E k).runAt r).verdict with
        | some z =>
          rw [hold] at hy ih
          cases hy
          obtain ⟨j, hj, hr⟩ := (ih hk').mp rfl
          exact ⟨j, Nat.lt_succ_of_lt hj, hr⟩
        | none =>
          rw [hold] at hy
          exact ⟨k, Nat.lt_succ_self k, hstep hy⟩
      · rintro ⟨j, hj, hr⟩
        rw [hv]
        rcases Nat.lt_succ_iff_lt_or_eq.mp hj with hj | rfl
        · rw [(ih hk').mpr ⟨j, hj, hr⟩]
          rfl
        · obtain ⟨hn, hne⟩ := hr.first hE hE'
          rw [hn, Option.none_or]
          exact (hs.verdict_iff hE.valid (haud _ hk hne) y).mpr hr
  exact hk last (Nat.le_refl _)

end Engine

end ReactiveRules
