import ReactiveRules.Proofs.Engine.Wakes

/-!
# `Proofs/Engine/Airing.lean` — what goes on the bus

The listeners of a run that publish broadcast some of what they hear. So the log of a run tells what
has been sent about it, and in which order: each message about a run says who it is about
(`Engine.Voice`), and what a milestone of the run says to the public (`Voice.message?`).

The bus is not part of the core, so each operation is followed once more. Most leave the bus and all
logs alone (`Engine.Mute`). **Those of a run's turn send what they add to the log of the run, and
nothing else** (`Engine.Speaks`).
-/

set_option autoImplicit false

namespace ReactiveRules

/-- Sends messages, one after another. -/
def Channel.sendAll {κ : Type} (c : Channel κ) (ms : List (Message κ)) : Channel κ :=
  ms.foldl (fun c m => (c.send m).1) c

theorem Channel.sendAll_append {κ : Type} (c : Channel κ) (ms ns : List (Message κ)) :
    c.sendAll (ms ++ ns) = (c.sendAll ms).sendAll ns := List.foldl_append

namespace Engine

/-- What messages about a run say besides what has happened in it. -/
structure Voice where
  run : Nat
  rule : String
  label : String
  node : String
  /-- How long the run has been going on. -/
  age : Nat

namespace Voice

variable (v : Voice)

def message (kind : EventKind) : Message Nat :=
  ⟨{ rule := v.rule, label := v.label, node := v.node, kind, timestamp := 0 }, "twin-rules",
    some v.run⟩

/-- What a listener broadcasts that is told something. -/
def message? : Milestone → Option (Message Nat)
  | .heard l s =>
    match l.role with
    | .publisher => (eventKind? v.age s).map v.message
    | .reporter _ => none
  | _ => none

/-- A record of the run tells how long it has been going on. -/
def Dates (m : Milestone) : Prop := ∀ x, m = .recorded x → x.duration = UInt64.ofNat v.age

end Voice

def voice (E : Engine) (r : Nat) : Voice :=
  { run := r, rule := (E.ruleOf r).id, label := (E.ruleOf r).definition.label
    node := (E.runAt r).trigger.node, age := E.age r }

variable {E E' E'' : Engine} {r : Nat}

/-! ## Operations that send nothing -/

/-- Nothing is sent, and nothing happens in any run. -/
structure Mute (E E' : Engine) : Prop where
  bus : E'.bus = E.bus
  logs : ∀ r, (E'.runAt r).log = (E.runAt r).log
  length : E.runs.length ≤ E'.runs.length

/-- Nothing is sent, nothing happens in any run, and the same would be said of all of them. -/
structure Still (E E' : Engine) : Prop extends Mute E E' where
  voice : ∀ r, E'.voice r = E.voice r

theorem Mute.refl (E : Engine) : E.Mute E := ⟨rfl, fun _ => rfl, Nat.le_refl _⟩

theorem Mute.trans (h : E.Mute E') (h' : E'.Mute E'') : E.Mute E'' :=
  ⟨h'.bus.trans h.bus, fun r => (h'.logs r).trans (h.logs r), Nat.le_trans h.length h'.length⟩

theorem Still.refl (E : Engine) : E.Still E := ⟨.refl E, fun _ => rfl⟩

theorem Still.trans (h : E.Still E') (h' : E'.Still E'') : E.Still E'' :=
  ⟨h.toMute.trans h'.toMute, fun r => (h'.voice r).trans (h.voice r)⟩

theorem mute_of_same (hb : E'.bus = E.bus) (hr : E'.runs = E.runs) : E.Mute E' :=
  ⟨hb, fun r => by rw [runAt, hr, runAt], Nat.le_of_eq (congrArg _ hr.symm)⟩

theorem still_of_same (hb : E'.bus = E.bus) (hn : E'.now = E.now) (hr : E'.runs = E.runs)
    (hi : E'.registry.instances = E.registry.instances) : E.Still E' := by
  refine ⟨mute_of_same hb hr, fun r => ?_⟩
  unfold voice age ruleOf runAt
  rw [hn, hr, hi]

theorem mute_foldl {α : Type} {f : Engine → α → Engine} (hf : ∀ (E : Engine) (a : α), E.Mute (f E a)) :
    ∀ (xs : List α) (E : Engine), E.Mute (xs.foldl f E) := by
  intro xs
  induction xs with
  | nil => intro E; exact .refl E
  | cons x rest ih => intro E; exact (hf E x).trans (ih _)

theorem still_foldl {α : Type} {f : Engine → α → Engine}
    (hf : ∀ (E : Engine) (a : α), E.Still (f E a)) :
    ∀ (xs : List α) (E : Engine), E.Still (xs.foldl f E) := by
  intro xs
  induction xs with
  | nil => intro E; exact .refl E
  | cons x rest ih => intro E; exact (hf E x).trans (ih _)

/-! ### Single changes -/

theorem still_wake (E : Engine) (j : Job) : E.Still (E.wake j) := by
  unfold wake
  split
  · exact .refl E
  · exact still_of_same rfl rfl rfl rfl

theorem still_goOn (E : Engine) (j : Job) : E.Still (E.goOn j) := still_of_same rfl rfl rfl rfl

theorem still_say (E : Engine) (e : Entry) : E.Still (E.say e) := still_of_same rfl rfl rfl rfl

theorem still_notice (E : Engine) (n : Notice) : E.Still (E.notice n) := E.still_say _

theorem still_setEvaluation (E : Engine) (e : Nat) (s : EvaluationState) :
    E.Still (E.setEvaluation e s) := still_of_same rfl rfl rfl rfl

theorem still_setWorker (E : Engine) (c w : Nat) (s : WorkerState) :
    E.Still (E.setWorker c w s) := still_of_same rfl rfl rfl rfl

theorem still_finishTask (E : Engine) (n : Nat) (x : TaskResult) : E.Still (E.finishTask n x) :=
  still_of_same rfl rfl rfl rfl

theorem length_modifyRun (E : Engine) (m : Nat) (f : Run → Run) :
    (E.modifyRun m f).runs.length = E.runs.length := List.length_modify _ _ _

theorem mute_modifyRun (E : Engine) (m : Nat) {f : Run → Run} (hf : ∀ x, (f x).log = x.log) :
    E.Mute (E.modifyRun m f) := by
  refine ⟨rfl, fun r => ?_, Nat.le_of_eq (E.length_modifyRun m f).symm⟩
  rcases E.runAt_modifyRun m f r with hx | ⟨-, hx⟩ <;> rw [hx]
  exact hf _

/-- What is said of a run is told by its rule, its trigger and its start. -/
theorem voice_congr (hn : E'.now = E.now) (hi : E'.registry.instances = E.registry.instances)
    (hr : (E'.runAt r).rule = (E.runAt r).rule) (ht : (E'.runAt r).trigger = (E.runAt r).trigger)
    (hs : (E'.runAt r).started = (E.runAt r).started) : E'.voice r = E.voice r := by
  unfold voice age ruleOf
  rw [hn, hi, hr, ht, hs]

/-- A change of a run that changes nothing that is said of it. -/
theorem voice_modifyRun (E : Engine) (m : Nat) {f : Run → Run}
    (hf : ∀ x, (f x).rule = x.rule ∧ (f x).trigger = x.trigger ∧ (f x).started = x.started)
    (r : Nat) : (E.modifyRun m f).voice r = E.voice r := by
  rcases E.runAt_modifyRun m f r with hx | ⟨-, hx⟩
  · exact voice_congr rfl rfl (by rw [hx]) (by rw [hx]) (by rw [hx])
  · exact voice_congr rfl rfl (by rw [hx, (hf _).1]) (by rw [hx, (hf _).2.1])
      (by rw [hx, (hf _).2.2])

theorem still_modifyRun (E : Engine) (m : Nat) {f : Run → Run} (hl : ∀ x, (f x).log = x.log)
    (hf : ∀ x, (f x).rule = x.rule ∧ (f x).trigger = x.trigger ∧ (f x).started = x.started) :
    E.Still (E.modifyRun m f) := ⟨E.mute_modifyRun m hl, E.voice_modifyRun m hf⟩

theorem still_setStage (E : Engine) (m : Nat) (s : Stage) : E.Still (E.setStage m s) :=
  E.still_modifyRun m (fun _ => rfl) fun _ => ⟨rfl, rfl, rfl⟩

theorem mute_modifyInstance (E : Engine) (n : Nat) (f : Instance → Instance) :
    E.Mute (E.modifyInstance n f) := mute_of_same rfl rfl

theorem still_modifyInstance (E : Engine) (n : Nat) {f : Instance → Instance}
    (hf : ∀ i, (f i).definition = i.definition) : E.Still (E.modifyInstance n f) := by
  refine ⟨mute_of_same rfl rfl, fun r => ?_⟩
  have hd : ((E.modifyInstance n f).ruleOf r).definition = (E.ruleOf r).definition := by
    rcases E.ruleOf_modifyInstance n f r with hx | ⟨-, hx⟩ <;> rw [hx]
    exact hf _
  unfold voice Rule.id
  rw [hd]
  rfl

theorem still_modifyRuleOf (E : Engine) (m : Nat) {f : Rule → Rule}
    (hf : ∀ x, (f x).definition = x.definition) : E.Still (E.modifyRuleOf m f) :=
  E.still_modifyInstance _ fun i => hf i.toRule

theorem mute_spawn (E : Engine) (n : Nat) (t : Trigger) (a : Admission) (c : Client) :
    E.Mute (E.spawn n t a c).1 := by
  refine ⟨rfl, fun r => ?_, ?_⟩
  · rcases Core.getD_concat_or E.runs { rule := n, trigger := t, admission := a, client := c }
      default r with hx | ⟨hx, hx'⟩
    · exact congrArg Run.log hx
    · exact (congrArg Run.log hx').trans (congrArg Run.log hx).symm
  · show E.runs.length ≤ (E.runs ++ [_]).length
    rw [List.length_append]
    exact Nat.le_add_right _ _

/-! ### The end of a run -/

theorem still_free (E : Engine) (m : Nat) : E.Still (E.free m) := by
  unfold free
  split
  · dsimp only
    refine Still.trans ?_ (still_foldl (fun E _ => E.still_wake _) _ _)
    refine Still.trans (E.still_modifyInstance _ ?_) (still_modifyRun _ m ?_ ?_)
    · exact fun _ => rfl
    · exact fun _ => rfl
    · exact fun _ => ⟨rfl, rfl, rfl⟩
  · exact .refl E

theorem still_reply (E : Engine) (e : Nat) (a : Script.Reply) : E.Still (E.reply e a) := by
  unfold reply
  split
  · exact (E.still_setEvaluation e _).trans (still_goOn _ _)
  · exact .refl E

theorem still_answer (E : Engine) (m : Nat) (o : Outcome) : E.Still (E.answer m o) := by
  have ha : E.Still (E.modifyRun m fun x => { x with answered := true }) :=
    E.still_modifyRun m (fun _ => rfl) fun _ => ⟨rfl, rfl, rfl⟩
  unfold answer
  split
  · exact .refl E
  · dsimp only
    split
    · exact ha.trans (still_finishTask _ _ _)
    · exact ha.trans (still_goOn _ _)
    · exact (ha.trans (still_setWorker _ _ _ _)).trans (still_goOn _ _)
    · exact ha.trans (still_reply _ _ _)

theorem still_finish (E : Engine) (m : Nat) (o : Outcome) : E.Still (E.finish m o) :=
  ((E.still_setStage m _).trans (still_free _ m)).trans (still_answer _ m o)

theorem still_showFacts (E : Engine) (m : Nat) : E.Still (E.showFacts m) :=
  still_foldl (fun E _ => E.still_say _) _ E

theorem still_evaluate {m : Nat} {p : Purpose} {text : String} {x : Except ScriptError Nat}
    (he : E.evaluate m p text = (E', x)) : E.Still E' := by
  have hs : E.Still (E.evaluate m p text).1 := by
    unfold evaluate
    dsimp only
    split <;> exact still_of_same rfl rfl rfl rfl
  rwa [he] at hs

/-! ## Operations that speak of a run -/

/-- In a run that there is, something may happen, and this is what is sent. -/
structure Airs.Of (r : Nat) (E E' : Engine) : Prop where
  lt : r < E'.runs.length
  others : ∀ m, m ≠ r → (E'.runAt m).log = (E.runAt m).log
  voice : E'.voice r = E.voice r
  said : ∃ w, (E'.runAt r).log = (E.runAt r).log ++ w ∧
    E'.bus = E.bus.sendAll (w.filterMap (E.voice r).message?) ∧ ∀ m ∈ w, (E.voice r).Dates m

/-- An operation in the turn of a run, after its start. -/
def Airs (r : Nat) (E E' : Engine) : Prop := r < E.runs.length → Airs.Of r E E'

theorem Airs.trans (h : Airs r E E') (h' : Airs r E' E'') : Airs r E E'' := by
  intro hr
  obtain ⟨hlt, ho, hv, w, hw, hb, hd⟩ := h hr
  obtain ⟨hlt', ho', hv', w', hw', hb', hd'⟩ := h' hlt
  rw [hv] at hb' hd'
  refine ⟨hlt', fun m hm => (ho' m hm).trans (ho m hm), hv'.trans hv, w ++ w', ?_, ?_, ?_⟩
  · rw [hw', hw, List.append_assoc]
  · rw [hb', hb, List.filterMap_append, Channel.sendAll_append]
  · intro m hm
    exact (List.mem_append.mp hm).elim (hd m) (hd' m)

theorem Still.airs (h : E.Still E') (r : Nat) : Airs r E E' := fun hr =>
  ⟨Nat.lt_of_lt_of_le hr h.length, fun m _ => h.logs m, h.voice r, [],
    by rw [List.append_nil, h.logs r], h.bus, fun _ hm => absurd hm List.not_mem_nil⟩

theorem Airs.refl (r : Nat) (E : Engine) : Airs r E E := (Still.refl E).airs r

theorem log_mark (hr : r < E.runs.length) (m : Milestone) :
    ((E.mark r m).runAt r).log = (E.runAt r).log ++ [m] := by
  have hx : (E.mark r m).runAt r = { E.runAt r with log := (E.runAt r).log ++ [m] } :=
    (Core.getD_modify _ _ hr r).trans (if_pos rfl)
  rw [hx]

theorem log_mark_ne (E : Engine) (m : Milestone) {r' : Nat} (hr : r' ≠ r) :
    ((E.mark r m).runAt r').log = (E.runAt r').log := by
  rcases E.runAt_modifyRun r (fun x => { x with log := x.log ++ [m] }) r' with hx | ⟨he, -⟩
  · exact congrArg Run.log hx
  · exact absurd he.symm hr

theorem voice_mark (E : Engine) (r : Nat) (m : Milestone) : (E.mark r m).voice r = E.voice r :=
  E.voice_modifyRun r (f := fun x => { x with log := x.log ++ [m] }) (fun _ => ⟨rfl, rfl, rfl⟩) r

/-- Something happens in a run. -/
theorem airs_mark (E : Engine) {m : Milestone} (hm : (E.voice r).message? m = none)
    (hd : (E.voice r).Dates m) : Airs r E (E.mark r m) := by
  intro hr
  refine ⟨(E.length_modifyRun r _).symm ▸ hr, fun _ => E.log_mark_ne m, E.voice_mark r m, [m],
    log_mark hr m, ?_, ?_⟩
  · rw [List.filterMap_cons_none hm]
    rfl
  · exact fun x hx => List.mem_singleton.mp hx ▸ hd

theorem publish_eq (E : Engine) (r : Nat) (s : RunSignal) : E.publish r s
    = { E with
        bus := E.bus.sendAll ((eventKind? (E.age r) s).map (E.voice r).message).toList } := by
  unfold publish
  split
  · next h => rw [h]; rfl
  · next h => rw [h]; rfl

theorem airs_hear (E : Engine) (r : Nat) (s : RunSignal) (l : Listener) :
    Airs r E (E.hear r s l) := by
  have hd : ∀ v : Voice, v.Dates (.heard l s) := fun _ _ h => Milestone.noConfusion h
  unfold hear
  dsimp only
  cases hl : l.role with
  | reporter full =>
    have hm : Airs r E (E.mark r (.heard l s)) :=
      airs_mark E (by simp only [Voice.message?, hl]) (hd _)
    have hs := hm.trans ((still_say _ (.heard l.name full s r)).airs r)
    dsimp only
    split
    · exact hs.trans ((still_notice _ _).airs r)
    · exact hs
  | publisher =>
    intro hr
    have hv := E.voice_mark r (.heard l s)
    have hage : (E.mark r (.heard l s)).age r = (E.voice r).age := congrArg Voice.age hv
    have hm : (E.voice r).message? (.heard l s)
        = (eventKind? (E.voice r).age s).map (E.voice r).message := by
      simp only [Voice.message?, hl]
    dsimp only
    rw [publish_eq, hv, hage]
    refine ⟨(E.length_modifyRun r _).symm ▸ hr, fun _ => E.log_mark_ne _, hv, [.heard l s],
      log_mark hr _, ?_, ?_⟩
    · cases hk : eventKind? (E.voice r).age s <;> simp [hm, hk] <;> rfl
    · exact fun m h => List.mem_singleton.mp h ▸ hd _

theorem airs_foldl {α : Type} {f : Engine → α → Engine}
    (hf : ∀ (E : Engine) (a : α), Airs r E (f E a)) :
    ∀ (xs : List α) (E : Engine), Airs r E (xs.foldl f E) := by
  intro xs
  induction xs with
  | nil => intro E; exact .refl r E
  | cons x rest ih => intro E; exact (hf E x).trans (ih _)

theorem airs_tell (E : Engine) (r : Nat) (s : RunSignal) : Airs r E (E.tell r s) :=
  airs_foldl (fun E l => E.airs_hear r s l) _ E

theorem airs_ask (r : Nat) : ∀ (ls : List Listener) (E : Engine), Airs r E (E.ask r ls).1 := by
  intro ls
  induction ls with
  | nil => intro E; exact .refl r E
  | cons l rest ih =>
    intro E
    -- a publisher that is asked says nothing
    have hm : Airs r E (E.mark r (.heard l .beforeEvaluate)) := by
      refine airs_mark E ?_ fun _ h => Milestone.noConfusion h
      cases hl : l.role <;> simp [Voice.message?, hl, eventKind?]
    have hs := fun e => hm.trans ((still_say _ e).airs r)
    unfold ask
    dsimp only
    split
    · split
      · exact hs _
      · split
        · exact hs _
        · exact (hs _).trans (ih _)
    · exact hm.trans (ih _)

theorem airs_record (E : Engine) (r : Nat) (condition executed : Bool) (error : Option RuleError) :
    Airs r E (E.record r condition executed error) := by
  let entry := (E.runAt r).recordAt (E.ruleOf r).definition E.now condition executed error
  have hm : Airs r E (E.mark r (.recorded entry)) := by
    refine airs_mark E rfl fun x hx => ?_
    cases hx
    rfl
  have hh : (E.mark r (.recorded entry)).Still (E.record r condition executed error) :=
    still_of_same rfl rfl rfl rfl
  exact hm.trans (hh.airs r)

/-- Most runs end by leaving a record and answering. -/
theorem airs_close (E : Engine) (r : Nat) (condition executed : Bool) (error : Option RuleError)
    (o : Outcome) : Airs r E ((E.record r condition executed error).finish r o) :=
  (E.airs_record r _ _ _).trans ((still_finish _ r o).airs r)

theorem airs_breakOff (E : Engine) (r : Nat) (m : String) : Airs r E (E.breakOff r m) := by
  unfold breakOff
  refine Airs.trans ?_ (airs_close _ r _ _ _ _)
  refine Airs.trans ?_ (airs_tell _ r _)
  exact ((E.still_notice _).trans (still_modifyRuleOf (f := Rule.markFailed) _ r fun _ => rfl)).airs r

theorem airs_conclude (E : Engine) (r : Nat) (result : Except RuleError Json) :
    Airs r E (E.conclude r result) := by
  have hc : Airs r E (E.mark r .concluded) :=
    airs_mark E rfl fun _ h => Milestone.noConfusion h
  have hm : Airs r E (if (E.ruleOf r).definition.clearFacts
      then (E.mark r .concluded).modifyRuleOf r Rule.clearFacts else E.mark r .concluded) := by
    split
    · exact hc.trans ((still_modifyRuleOf (f := Rule.clearFacts) _ r fun _ => rfl).airs r)
    · exact hc
  have hd : ∀ (now : Nat) (success : Bool) (x : Rule),
      (x.markCompleted now success).definition = x.definition := by
    intro now success x
    unfold Rule.markCompleted
    split <;> rfl
  unfold conclude
  cases result with
  | ok v =>
    refine Airs.trans ?_ (airs_close _ r _ _ _ _)
    refine Airs.trans ?_ (airs_tell _ r _)
    refine Airs.trans ?_ (airs_tell _ r _)
    exact hm.trans (((still_modifyRuleOf _ r (hd _ _)).trans (still_notice _ _)).airs r)
  | error e =>
    refine Airs.trans ?_ (airs_close _ r _ _ _ _)
    refine Airs.trans ?_ (airs_tell _ r _)
    exact hm.trans (((still_modifyRuleOf _ r (hd _ _)).trans (still_notice _ _)).airs r)

theorem airs_expire (E : Engine) (r e : Nat) : Airs r E (E.expire r e) := by
  have he : E.Still (E.modifyEvaluation e fun x => { x with cancelled := true }) :=
    still_of_same rfl rfl rfl rfl
  unfold expire
  exact (he.airs r).trans (airs_conclude _ r _)

theorem airs_forgo (E : Engine) (r : Nat) : Airs r E (E.forgo r) := by
  unfold forgo
  refine Airs.trans ?_ (airs_close _ r _ _ _ _)
  exact ((E.still_notice _).airs r).trans (airs_tell _ r _)

theorem airs_act (E : Engine) (r : Nat) : Airs r E (E.act r) := by
  have ha : Airs r E (E.mark r .attempted) := airs_mark E rfl fun _ h => Milestone.noConfusion h
  have hm := ha.trans ((still_showFacts _ r).airs r)
  unfold act
  dsimp only
  split
  · next E' e he => exact (hm.trans ((still_evaluate he).airs r)).trans (airs_conclude _ r _)
  · next E' e he =>
    have hE := hm.trans ((still_evaluate he).airs r)
    exact hE.trans ((((still_setStage _ r _).trans (still_wake _ _)).trans (still_goOn _ _)).airs r)

theorem airs_proceed (E : Engine) (r : Nat) : Airs r E (E.proceed r) := by
  have ht := E.airs_tell r .beforeExecute
  unfold proceed
  dsimp only
  split
  · exact (((E.still_notice _).airs r).trans (airs_tell _ r _)).trans (airs_close _ r _ _ _ _)
  · split
    · exact ht.trans (airs_act _ r)
    · exact ht.trans (((still_setStage _ r _).trans (still_goOn _ _)).airs r)

theorem airs_decideOn (E : Engine) (r : Nat) (result : Except ScriptError Bool) :
    Airs r E (E.decideOn r result) := by
  unfold decideOn
  rcases result with e | (_ | _)
  · refine Airs.trans ?_ (airs_close _ r _ _ _ _)
    exact (((E.still_notice _).airs r).trans (airs_tell _ r _)).trans (airs_tell _ r _)
  · refine Airs.trans ?_ (airs_close _ r _ _ _ _)
    exact (E.airs_tell r _).trans (airs_tell _ r _)
  · exact (E.airs_tell r _).trans (airs_proceed _ r)

theorem airs_judge (E : Engine) (r : Nat) : Airs r E (E.judge r) := by
  have hj : Airs r E (E.mark r .judged) := airs_mark E rfl fun _ h => Milestone.noConfusion h
  have hm : Airs r E (((E.mark r .judged).showFacts r).modifyRuleOf r Rule.markEvaluated) :=
    hj.trans (((still_showFacts _ r).trans
      (still_modifyRuleOf (f := Rule.markEvaluated) _ r fun _ => rfl)).airs r)
  unfold judge
  dsimp only
  split
  · next E' e he => exact (hm.trans ((still_evaluate he).airs r)).trans (airs_decideOn _ r _)
  · next E' e he =>
    have hE := hm.trans ((still_evaluate he).airs r)
    exact hE.trans (((still_setStage _ r _).trans (still_goOn _ _)).airs r)

/-! ## Turns of runs -/

/-- What is sent is what is added to the log of a single run, said of the run as it is afterwards. -/
structure Speaks.Of (r : Nat) (E E' : Engine) : Prop where
  others : ∀ m, m ≠ r → (E'.runAt m).log = (E.runAt m).log
  said : ∃ w, (E'.runAt r).log = (E.runAt r).log ++ w ∧
    E'.bus = E.bus.sendAll (w.filterMap (E'.voice r).message?) ∧ ∀ m ∈ w, (E'.voice r).Dates m

/-- An operation in the turn of a run. -/
def Speaks (r : Nat) (E E' : Engine) : Prop := r < E.runs.length → Speaks.Of r E E'

theorem Airs.speaks (h : Airs r E E') : Speaks r E E' := by
  intro hr
  obtain ⟨-, ho, hv, hw⟩ := h hr
  rw [← hv] at hw
  exact ⟨ho, hw⟩

theorem Mute.speaks (h : E.Mute E') (hs : Speaks r E' E'') : Speaks r E E'' := by
  intro hr
  obtain ⟨ho, w, hw, hb, hd⟩ := hs (Nat.lt_of_lt_of_le hr h.length)
  exact ⟨fun m hm => (ho m hm).trans (h.logs m), w, h.logs r ▸ hw, h.bus ▸ hb, hd⟩

theorem Mute.quiet (h : E.Mute E') (r : Nat) : Speaks r E E' := h.speaks (Airs.refl r E').speaks

theorem speaks_finish (h : E.Mute E') (o : Outcome) : Speaks r E (E'.finish r o) :=
  h.speaks (((still_finish E' r o).airs r).speaks)

theorem speaks_start (E : Engine) (r : Nat) : Speaks r E (E.start r) := by
  have ht : E.Mute (E.modifyRun r fun x => { x with started := E.now, audience := E.listeners }) :=
    E.mute_modifyRun r fun _ => rfl
  have ha : ∀ (ls : List Listener) (E : Engine), Airs r E ((E.mark r .began).ask r ls).1 :=
    fun ls E => (airs_mark E rfl fun _ h => Milestone.noConfusion h).trans (airs_ask r ls _)
  unfold start
  dsimp only
  split
  · exact speaks_finish (E.still_notice _).toMute _
  · refine ht.speaks (Airs.speaks ?_)
    split
    · next E' m he => exact (he ▸ ha _ _).trans (airs_breakOff _ r m)
    · next E' he =>
      exact (he ▸ ha _ _).trans (((still_notice _ _).trans (still_finish _ r _)).airs r)
    · next E' he => exact (he ▸ ha _ _).trans (airs_judge _ r)

theorem mute_hold (E : Engine) (r : Nat) (slot : Slot Nat) : E.Mute (E.hold r slot) :=
  (E.mute_modifyInstance _ _).trans
    (mute_modifyRun _ r (f := fun x => { x with claimed := true }) fun _ => rfl)

theorem speaks_claim (E : Engine) (r : Nat) : Speaks r E (E.claim r) := by
  unfold claim
  dsimp only
  split
  · exact speaks_finish (.refl E) _
  · split
    · exact (E.mute_hold r _).speaks (speaks_start _ r)
    · split
      · exact speaks_finish (E.still_notice _).toMute _
      · exact ((E.mute_modifyInstance _ _).trans (still_setStage _ r _).toMute).quiet r

theorem mute_cancelDeferral (E : Engine) (r : Nat) : E.Mute (E.cancelDeferral r) := by
  unfold cancelDeferral
  split
  · exact ((E.still_setStage r _).trans (still_wake _ _)).toMute
  · exact .refl E

theorem mute_defer (E : Engine) (r : Nat) : E.Mute (E.defer r) := by
  have hm : E.Mute (E.modifyRuleOf r (·.supersede r)) := mute_of_same rfl rfl
  unfold defer
  dsimp only
  refine Mute.trans ?_ ((still_setStage _ r _).trans (still_answer _ r _)).toMute
  split
  · exact (hm.trans (still_notice _ _).toMute).trans (mute_cancelDeferral _ _)
  · exact hm

theorem speaks_arrive (E : Engine) (r : Nat) : Speaks r E (E.arrive r) := by
  have hm : E.Mute (E.modifyRuleOf r (·.recordFact E.now (E.runAt r).trigger.node
      (E.runAt r).trigger.name (E.runAt r).trigger.value)) := mute_of_same rfl rfl
  have ha := hm.trans (mute_modifyRun _ r (f := fun x => { x with admitted := true }) fun _ => rfl)
  unfold arrive
  dsimp only
  split
  · exact speaks_finish (E.still_notice _).toMute _
  · split
    · exact speaks_finish (E.still_notice _).toMute _
    · split
      · exact ha.speaks (speaks_claim _ r)
      · exact (ha.trans (mute_defer _ r)).quiet r

theorem speaks_wakeDeferred (E : Engine) (r g due : Nat) (cancelled second : Bool) :
    Speaks r E (E.wakeDeferred r g due cancelled second) := by
  have hm : E.Mute (E.modifyRuleOf r (·.finishPending g)) := mute_of_same rfl rfl
  unfold wakeDeferred
  split
  · exact hm.speaks (speaks_claim _ r)
  · split
    · exact ((E.still_notice _).trans (still_setStage _ r _)).toMute.quiet r
    · exact (Mute.refl E).quiet r

theorem speaks_wakeWaiting (E : Engine) (r : Nat) (second : Bool) :
    Speaks r E (E.wakeWaiting r second) := by
  unfold wakeWaiting
  dsimp only
  split
  · exact (E.mute_hold r _).speaks (speaks_start _ r)
  · split
    · exact speaks_finish ((E.mute_modifyInstance _ _).trans (still_notice _ _).toMute) _
    · split
      · exact (E.mute_modifyInstance _ _).quiet r
      · exact (Mute.refl E).quiet r

theorem speaks_wakeDelayed (E : Engine) (r due : Nat) (second : Bool) :
    Speaks r E (E.wakeDelayed r due second) := by
  unfold wakeDelayed
  dsimp only
  split
  · exact (E.airs_act r).speaks
  · split
    · exact (E.airs_forgo r).speaks
    · exact (Mute.refl E).quiet r

theorem speaks_performRun (E : Engine) (r : Nat) (second : Bool) :
    Speaks r E (E.performRun r second) := by
  unfold performRun
  split
  · exact (Mute.refl E).quiet r
  · split
    · exact E.speaks_arrive r
    · exact E.speaks_wakeDeferred r _ _ _ second
    · exact E.speaks_wakeWaiting r second
    · exact E.speaks_wakeDelayed r _ second
    · split
      · exact (E.airs_expire r _).speaks
      · exact (Mute.refl E).quiet r
    · exact (Mute.refl E).quiet r

/-! ## Rules -/

theorem mute_signalRetirement (E : Engine) (n : Nat) (p : Option (Nat × Nat)) :
    E.Mute (E.signalRetirement n p) := by
  have hw := mute_foldl (fun E r => (E.still_wake (.run r)).toMute) (E.listening n) E
  unfold signalRetirement
  cases p with
  | none => exact hw
  | some p => exact hw.trans (mute_cancelDeferral _ _)

theorem mute_define (E : Engine) (d : Definition) : E.Mute (E.define d).1 := by
  unfold define
  split
  · exact .refl E
  · next R placed _ =>
    have hR : E.Mute { E with registry := R } := mute_of_same rfl rfl
    dsimp only
    split
    · exact (hR.trans (mute_signalRetirement _ _ _)).trans (still_notice _ _).toMute
    · exact hR.trans (still_notice _ _).toMute

theorem mute_deregister (E : Engine) (id : String) : E.Mute (E.deregister id).1 := by
  unfold deregister
  split
  · exact .refl E
  · next R removed _ =>
    have hR : E.Mute { E with registry := R } := mute_of_same rfl rfl
    exact (hR.trans (mute_signalRetirement _ _ _)).trans (still_notice _ _).toMute

theorem mute_observe (E : Engine) (node id : String) : E.Mute (E.observe node id).1 := by
  unfold observe
  split
  · exact .refl E
  · next R _ =>
    have hR : E.Mute { E with registry := R } := mute_of_same rfl rfl
    exact hR.trans (still_notice _ _).toMute

theorem mute_setPaused (E : Engine) (id : String) (paused : Bool) :
    E.Mute (E.setPaused id paused).1 := by
  unfold setPaused
  split
  · exact .refl E
  · exact (E.mute_modifyInstance _ _).trans (still_notice _ _).toMute

theorem mute_wakeWorkers (E : Engine) : E.Mute E.wakeWorkers :=
  mute_foldl (fun E _ => (E.still_wake _).toMute) _ E

theorem mute_dispatch (E : Engine) (t : Trigger) : E.Mute (E.dispatch t).1 := by
  unfold dispatch
  split
  · exact .refl E
  · dsimp only
    split
    · exact ((E.still_notice _).trans (still_notice _ _)).toMute
    · next queue _ =>
      have hq : E.Mute { E with queue } := mute_of_same rfl rfl
      exact hq.trans (mute_wakeWorkers _)

theorem mute_tickCrew (E : Engine) (c : Nat) : E.Mute (E.tickCrew c) := by
  have hk : E.Mute E.keepHouse := by
    have hq : E.Mute { E.sweep.1 with queue := E.sweep.1.queue.cleanUp E.sweep.1.now } :=
      mute_of_same rfl rfl
    unfold keepHouse
    dsimp only
    split
    · exact hq.trans (still_notice _ _).toMute
    · exact hq
  unfold tickCrew
  split
  · exact hk.trans (mute_of_same rfl rfl)
  · exact .refl E

theorem mute_strike (E : Engine) (t : Nat) : E.Mute (E.strike t) := by
  have ht : E.Mute { E with now := t } := mute_of_same rfl rfl
  unfold strike
  dsimp only
  exact (ht.trans (mute_foldl (fun E c => E.mute_tickCrew c) _ _)).trans
    (mute_foldl (fun E r => (E.still_wake _).toMute) _ _)

/-! ## Workers and writers -/

theorem mute_assign (E : Engine) (c w : Nat) (t : Trigger) : E.Mute (E.assign c w t) := by
  unfold assign
  split
  · exact (((E.still_notice _).trans (still_setWorker _ c w _)).trans (still_goOn _ _)).toMute
  · exact ((E.mute_spawn _ t _ _).trans (still_setWorker _ c w _).toMute).trans
      (still_goOn _ _).toMute

theorem mute_served (E : Engine) (c w : Nat)
    (x : DispatchQueue Trigger (Nat × Nat) × Option Trigger) : E.Mute (E.served c w x) := by
  have hq : E.Mute { E with queue := x.1 } := mute_of_same rfl rfl
  unfold served
  dsimp only
  split
  · exact hq.trans (mute_assign _ c w _)
  · exact hq.trans (still_setWorker _ c w _).toMute

theorem mute_stopWorker (E : Engine) (c w : Nat) : E.Mute (E.stopWorker c w) :=
  ((E.still_setWorker c w _).trans (still_notice _ _)).toMute.trans
    (mute_foldl (fun E _ => (E.still_wake _).toMute) _ _)

theorem mute_leave (E : Engine) (c w : Nat) : E.Mute (E.leave c w) := by
  have hq : E.Mute { E with queue := E.queue.abort (c, w) } := mute_of_same rfl rfl
  exact (hq.trans (mute_wakeWorkers _)).trans (mute_stopWorker _ c w)

theorem mute_performWorker (E : Engine) (c w : Nat) (second : Bool) :
    E.Mute (E.performWorker c w second) := by
  unfold performWorker
  dsimp only
  split
  · split
    · exact E.mute_stopWorker c w
    · exact E.mute_served c w _
  · split
    · split
      · exact (E.mute_served c w _).trans (mute_leave _ c w)
      · exact E.mute_served c w _
    · split
      · exact E.mute_leave c w
      · exact .refl E
  · exact .refl E

theorem mute_performStop (E : Engine) (k : Nat) : E.Mute (E.performStop k) := by
  unfold performStop
  split
  · exact .refl E
  · next s _ =>
    split
    · exact .refl E
    · have hs : E.Mute { E with
          crews := E.crews.modify s.crew fun x => { x with tick := none }
          stops := E.stops.set k { s with answered := true } } := mute_of_same rfl rfl
      exact hs.trans ((still_notice _ _).trans (still_finishTask _ _ _)).toMute

theorem mute_performWrite (E : Engine) (k : Nat) : E.Mute (E.performWrite k) := by
  unfold performWrite
  split
  · exact .refl E
  · next x _ =>
    split
    · exact (E.still_finishTask _ _).toMute
    · next rule rest _ =>
      have hx : E.Mute { E with writes := E.writes.set k { x with remaining := rest } } :=
        mute_of_same rfl rfl
      dsimp only
      split
      · exact hx.trans ((still_notice _ _).trans (still_goOn _ _)).toMute
      · exact (hx.trans (mute_spawn _ _ _ _ _)).trans (still_goOn _ _).toMute

/-! ## Scripts -/

section Scripts

open Script (Process Reply Fault Value)

variable (E)

theorem still_resumeScript (e : Nat) (p : Process (Except Fault Value)) :
    E.Still (E.resumeScript e p) := (E.still_setEvaluation e _).trans (still_goOn _ _)

theorem still_modifyEvaluation (e : Nat) (f : Evaluation → Evaluation) :
    E.Still (E.modifyEvaluation e f) := still_of_same rfl rfl rfl rfl

theorem mute_answerScript (e : Nat) (cancels : Bool) (a : Except String Json)
    (next : Reply → Process (Except Fault Value)) : E.Mute (E.answerScript e cancels a next) :=
  ((E.still_modifyEvaluation e _).trans (still_resumeScript _ e _)).toMute

theorem mute_pass (e : Nat) (command : String) (next : Reply → Process (Except Fault Value)) :
    E.Mute (E.pass e command next) := ((E.still_say _).trans (still_resumeScript _ e _)).toMute

theorem mute_reachGate (e : Nat) (command gate : String)
    (next : Reply → Process (Except Fault Value)) : E.Mute (E.reachGate e command gate next) := by
  unfold reachGate
  split
  · have hp : E.Mute { E with permits := E.permits.erase gate } := mute_of_same rfl rfl
    exact hp.trans (mute_pass _ e command next)
  · exact (E.still_setEvaluation e _).toMute

theorem mute_openGate (gate : String) : E.Mute (E.openGate gate) := by
  unfold openGate
  split
  · exact mute_of_same rfl rfl
  · split
    · exact E.mute_pass _ _ _
    · exact .refl E

theorem mute_fire (e : Nat) (t : Trigger) (next : Reply → Process (Except Fault Value)) :
    E.Mute (E.fire e t next) := by
  unfold fire
  split
  · exact (E.still_resumeScript e _).toMute
  · exact ((E.still_setEvaluation e _).toMute.trans (mute_spawn _ _ _ _ _)).trans
      (still_goOn _ _).toMute

theorem mute_obey (node : String) (o : Order) : E.Mute (E.obey node o).1 := by
  cases o with
  | deregister rule => exact E.mute_deregister rule
  | pause rule => exact E.mute_setPaused rule true
  | resume rule => exact E.mute_setPaused rule false
  | register rule condition action => exact E.mute_define _
  | dispatch rule name value => exact E.mute_dispatch _
  | cancel => exact .refl E
  | unknown word => exact .refl E

variable {E}

/-- At most one run speaks, and only of a certain kind. -/
inductive Utters (P : Nat → Prop) (E E' : Engine) : Prop
  | quiet (h : E.Mute E')
  | speaks {r : Nat} (hr : P r) (h : Speaks.Of r E E')

variable {P : Nat → Prop}

theorem Mute.utters (h : E.Mute E') (hs : Utters P E' E'') : Utters P E E'' := by
  cases hs with
  | quiet hm => exact .quiet (h.trans hm)
  | @speaks r hr hs =>
    obtain ⟨w, hw, hb, hd⟩ := hs.said
    refine .speaks hr ⟨fun m hm => (hs.others m hm).trans (h.logs m), w, ?_, ?_, hd⟩
    · rw [hw, h.logs r]
    · rw [hb, h.bus]

theorem Airs.utters (h : Airs r E E') (hr : r < E.runs.length) (hp : P r) : Utters P E E' :=
  .speaks hp (h.speaks hr)

/-- The run asks for the result of the evaluation. -/
structure Asks (E : Engine) (e r : Nat) : Prop where
  run : (E.evaluationAt e).run = r
  stage : (E.runAt r).stage = .judging e ∨ ∃ d, (E.runAt r).stage = .acting e d

theorem Asks.lt {e : Nat} (h : E.Asks e r) : r < E.runs.length := by
  apply lt_of_stage
  rcases h.stage with hs | ⟨d, hs⟩ <;> rw [hs] <;> exact Stage.noConfusion

theorem utters_concludeScript (E : Engine) (e : Nat) (result : Except String (Except Fault Value)) :
    Utters (E.Asks e) E (E.concludeScript e result) := by
  have he := E.still_setEvaluation e .ended
  have hlt : ∀ {s : Stage}, ((E.setEvaluation e .ended).runAt (E.evaluationAt e).run).stage = s →
      s ≠ .arriving → (E.evaluationAt e).run < (E.setEvaluation e .ended).runs.length :=
    fun hs hne => lt_of_stage (hs ▸ hne)
  unfold concludeScript
  refine he.toMute.utters ?_
  dsimp only
  split
  · next e' hs =>
    have hr := hlt hs Stage.noConfusion
    split
    · next heq =>
      have ha : E.Asks e (E.evaluationAt e).run := ⟨rfl, .inl (beq_iff_eq.mp heq ▸ hs)⟩
      cases result with
      | error m => exact (airs_breakOff _ _ m).utters hr ha
      | ok v => exact (airs_decideOn _ _ _).utters hr ha
    · exact .quiet (.refl _)
  · next e' d hs =>
    have hr := hlt hs Stage.noConfusion
    split
    · next heq =>
      have ha : E.Asks e (E.evaluationAt e).run := ⟨rfl, .inr ⟨d, beq_iff_eq.mp heq ▸ hs⟩⟩
      cases result with
      | error m => exact (airs_conclude _ _ _).utters hr ha
      | ok v => exact (airs_conclude _ _ _).utters hr ha
    · exact .quiet (.refl _)
  · exact .quiet (.refl _)

/-- The turn of an evaluation brings it to its end, with a result only if its script has come to that
result. -/
structure Completes (e : Nat) (E E' : Engine) (result : Except String (Except Fault Value)) : Prop where
  value : ∀ v, result = .ok v → (E.evaluationAt e).state = .running (.done v)
  ends : ∃ E₁ : Engine, E.Mute E₁ ∧ E₁.core = E.core ∧ E₁.evaluationAt e = E.evaluationAt e ∧
    E' = E₁.concludeScript e result

theorem Completes.breaks {e : Nat} {E₁ : Engine} (hm : E.Mute E₁) (hc : E₁.core = E.core)
    (he : E₁.evaluationAt e = E.evaluationAt e) (m : String) :
    Completes e E (E₁.concludeScript e (.error m)) (.error m) :=
  ⟨fun _ h => (by cases h), E₁, hm, hc, he, rfl⟩

theorem invoke_mute_or_completes (E : Engine) (e : Nat) (command : String) (args : List Json)
    (next : Reply → Process (Except Fault Value)) :
    E.Mute (E.invoke e command args next) ∨ ∃ m, Completes e E (E.invoke e command args next) (.error m) := by
  unfold invoke
  dsimp only
  split
  · exact .inl (E.still_resumeScript e _).toMute
  · next commands device calls _ =>
    have hc : E.Mute { E with commands } := mute_of_same rfl rfl
    generalize hE : Engine.say _ _ = E₁
    have hm : E.Mute E₁ := hE ▸ hc.trans (still_say _ _).toMute
    have hcore : E₁.core = E.core := hE ▸ core_say_of_none _ rfl
    have he : E₁.evaluationAt e = E.evaluationAt e := hE ▸ rfl
    cases device with
    | plain c =>
      dsimp only
      split
      · exact .inl (hm.trans (mute_answerScript _ e _ _ next))
      · next m _ => exact .inr ⟨m, .breaks hm hcore he m⟩
    | gate => exact .inl (hm.trans (mute_reachGate _ e _ _ next))
    | fire => exact .inl (hm.trans (mute_fire _ e _ next))
    | order =>
      dsimp only
      exact .inl (hm.trans ((mute_obey _ _ _).trans (mute_answerScript _ e _ _ next)))

/-- **The turn of an evaluation goes unheard, or brings it to its end.** -/
theorem performScript_mute_or_completes (E : Engine) (e : Nat) :
    E.Mute (E.performScript e) ∨ ∃ result, Completes e E (E.performScript e) result := by
  unfold performScript
  dsimp only
  split
  · next v hs =>
    exact .inr ⟨.ok v, fun w hw => Except.ok.inj hw ▸ hs, E, .refl E, rfl, rfl, rfl⟩
  · next m hs => exact .inr ⟨.error m, .breaks (.refl E) rfl rfl m⟩
  · exact .inl ((E.still_say _).trans (still_resumeScript _ e _)).toMute
  · split
    · exact .inl (E.still_resumeScript e _).toMute
    · exact (E.invoke_mute_or_completes e _ _ _).imp id fun ⟨m, h⟩ => ⟨.error m, h⟩
  · exact .inl (.refl E)

theorem utters_performScript (E : Engine) (e : Nat) : Utters (E.Asks e) E (E.performScript e) := by
  rcases E.performScript_mute_or_completes e with hm | ⟨result, hcomp⟩
  · exact .quiet hm
  · obtain ⟨E₁, hm, hc, he, hE⟩ := hcomp.ends
    have hs : ∀ r, E₁.runAt r = E.runAt r := fun r => congrArg (·.runAt r) hc
    rw [hE]
    refine hm.utters ?_
    cases utters_concludeScript E₁ e result with
    | quiet hq => exact .quiet hq
    | @speaks r hr hsp => exact .speaks ⟨he ▸ hr.run, hs r ▸ hr.stage⟩ hsp

end Scripts

/-! ## Steps -/

/-- Whose turn it is: that of the run, or of an evaluation that it asks for. -/
def Speaker (E : Engine) (j : Job) (r : Nat) : Prop := j = .run r ∨ ∃ e, j = .script e ∧ E.Asks e r

theorem utters_turn (E : Engine) (j : Job) (second : Bool) :
    Utters (fun r => r < E.runs.length ∧ j ∈ E.ready ∧ E.Speaker j r) E (E.turn j second) := by
  unfold turn
  split
  · next hmem =>
    have hj : E.Mute { E with ready := E.ready.erase j } := mute_of_same rfl rfl
    have hmem := List.contains_iff_mem.mp hmem
    refine hj.utters ?_
    cases j with
    | run r =>
      by_cases hr : r < E.runs.length
      · exact .speaks ⟨hr, hmem, .inl rfl⟩ (speaks_performRun _ r second hr)
      · have hn : ({ E with ready := E.ready.erase (.run r) } : Engine).runs[r]? = none :=
          List.getElem?_eq_none (Nat.le_of_not_lt hr)
        simp only [perform, performRun, hn]
        exact .quiet (.refl _)
    | script e =>
      cases utters_performScript { E with ready := E.ready.erase (.script e) } e with
      | quiet hq => exact .quiet hq
      | speaks hr hs => exact .speaks ⟨hr.lt, hmem, .inr ⟨e, rfl, hr.run, hr.stage⟩⟩ hs
    | write k => exact .quiet (mute_performWrite _ k)
    | worker c w => exact .quiet (mute_performWorker _ c w second)
    | stop k => exact .quiet (mute_performStop _ k)
  · exact .quiet (.refl E)

theorem mute_abandonRunOf (E : Engine) (c : Client) : E.Mute (E.abandonRunOf c) := by
  unfold abandonRunOf
  split
  · exact .refl E
  · exact (E.mute_modifyInstance _ _).trans ((still_setStage _ _ _).trans (still_free _ _)).toMute

theorem mute_unguard (E : Engine) (name : String) : E.Mute (E.unguard name).1 := by
  unfold unguard
  split
  · exact .refl E
  · next n _ =>
    have hs : E.Mute { E.modifyInstance n fun i =>
        { i with slot := (E.registry.instances.getD n default).slot.release.1 } with
        guards := E.guards.filter (·.1 != name) } := mute_of_same rfl rfl
    exact hs.trans (mute_foldl (fun E _ => (E.still_wake _).toMute) _ _)

theorem mute_guard (E : Engine) (n : Nat) (name : String) : E.Mute (E.guard n name).1 := by
  unfold guard
  split
  · exact .refl E
  · next slot _ =>
    have hu := (E.mute_modifyInstance n fun i => { i with slot }).trans (mute_unguard _ name)
    refine hu.trans ?_
    exact mute_of_same rfl rfl

theorem mute_write (E : Engine) (a : Aspect) (node name : String) (value : Json) :
    E.Mute (E.write a node name value).1 := by
  unfold write
  dsimp only
  refine Mute.trans ?_ (still_wake _ _).toMute
  split
  · exact mute_of_same rfl rfl
  · exact mute_of_same rfl rfl

theorem mute_startWork (E : Engine) : E.Mute E.startWork.1 := by
  unfold startWork hire
  split
  · exact .refl E
  · dsimp only
    refine Mute.trans ?_ (mute_foldl (fun E _ => (E.still_wake _).toMute) _ _)
    refine Mute.trans ?_ (still_notice _ _).toMute
    exact mute_of_same rfl rfl

theorem mute_stopWork (E : Engine) : E.Mute E.stopWork.1 := by
  unfold stopWork dismiss
  dsimp only
  split
  · exact mute_of_same rfl rfl
  · refine Mute.trans ?_ (still_wake _ _).toMute
    refine Mute.trans ?_ (mute_foldl (fun E _ => (E.still_wake _).toMute) _ _)
    exact mute_of_same rfl rfl

/-- Someone begins to listen to the bus, or listens no more. -/
inductive Tunes {κ : Type} (c : Channel κ) : Channel κ → Prop
  | joins (filter : EventFilter) : Tunes c (c.join filter).1
  | leaves : Tunes c c.leave

theorem serve_mute (E : Engine) (q : Request) :
    E.Mute (E.serve q) ∨
      Tunes E.bus (E.serve q).bus ∧ ∀ r, ((E.serve q).runAt r).log = (E.runAt r).log := by
  cases q with
  | define d => exact .inl (E.mute_define d)
  | deregister id => exact .inl (E.mute_deregister id)
  | observe node id => exact .inl (E.mute_observe node id)
  | setPaused id paused => exact .inl (E.mute_setPaused id paused)
  | dispatch t => exact .inl (E.mute_dispatch t)
  | notify n t a =>
    have ht : E.Mute E.startTask.1 := mute_of_same rfl rfl
    exact .inl ((ht.trans (mute_spawn _ n t a _)).trans (still_wake _ _).toMute)
  | write a node name value => exact .inl (E.mute_write a node name value)
  | abandon task => exact .inl (E.mute_abandonRunOf _)
  | abandonWrite k =>
    have hk : E.Mute { E with
        writes := E.writes.modify k fun x => { x with remaining := [] }
        ready := E.ready.erase (.write k) } := mute_of_same rfl rfl
    exact .inl (hk.trans (mute_abandonRunOf _ _))
  | guard n name => exact .inl (E.mute_guard n name)
  | unguard name => exact .inl (E.mute_unguard name)
  | openGate gate => exact .inl (E.mute_openGate gate)
  | start => exact .inl E.mute_startWork
  | stop => exact .inl E.mute_stopWork
  | subscribe filter => exact .inr ⟨.joins filter, fun _ => rfl⟩
  | unsubscribe => exact .inr ⟨.leaves, fun _ => rfl⟩
  | _ => exact .inl (mute_of_same rfl rfl)

/-- What is added to the log of a run. -/
def gained (E E' : Engine) (r : Nat) : List Milestone :=
  (E'.runAt r).log.drop (E.runAt r).log.length

/-- What is sent about a run. -/
def sentOf (E E' : Engine) (r : Nat) : List (Message Nat) :=
  (E.gained E' r).filterMap (E'.voice r).message?

/-- What is sent, if that is what the logs of the runs say. -/
def sent (E E' : Engine) : List (Message Nat) :=
  (List.range E'.runs.length).flatMap (E.sentOf E')

theorem gained_of_append {w : List Milestone} (h : (E'.runAt r).log = (E.runAt r).log ++ w) :
    E.gained E' r = w := by
  rw [gained, h, List.drop_left]

theorem gained_of_eq (h : (E'.runAt r).log = (E.runAt r).log) : E.gained E' r = [] :=
  gained_of_append (by rw [h, List.append_nil])

/-- If nothing comes of any number but one, that is all that comes of all of them. -/
theorem flatMap_range_of_others {α : Type} {f : Nat → List α} {r : Nat}
    (hf : ∀ m, m ≠ r → f m = []) (n : Nat) :
    (List.range n).flatMap f = if r < n then f r else [] := by
  induction n with
  | zero => rfl
  | succ n ih =>
    rw [List.range_succ, List.flatMap_append, ih, List.flatMap_singleton]
    by_cases hn : n = r
    · subst hn
      simp
    · rw [hf n hn, List.append_nil]
      exact if_congr (by omega) rfl rfl

/-- Of a run that there is not, nothing is said. -/
theorem sentOf_of_le (hr : E'.runs.length ≤ r) : E.sentOf E' r = [] := by
  have hx : (E'.runAt r).log = [] := congrArg Run.log (Core.runAt_of_le (C := E'.core) hr)
  rw [sentOf, gained, hx, List.drop_nil, List.filterMap_nil]

/-- If a single run speaks, that is all. -/
theorem sent_of_others (ho : ∀ m, m ≠ r → (E'.runAt m).log = (E.runAt m).log) :
    E.sent E' = E.sentOf E' r := by
  have hm : ∀ m, m ≠ r → E.sentOf E' m = [] := fun m hm => by
    rw [sentOf, gained_of_eq (ho m hm), List.filterMap_nil]
  rw [sent, flatMap_range_of_others hm]
  split
  · rfl
  · next h => exact (sentOf_of_le (Nat.le_of_not_lt h)).symm

theorem sent_of_logs (hl : ∀ r, (E'.runAt r).log = (E.runAt r).log) : E.sent E' = [] := by
  rw [sent_of_others (r := 0) fun m _ => hl m, sentOf, gained_of_eq (hl 0), List.filterMap_nil]

theorem Mute.sends (h : E.Mute E') : E'.bus = E.bus.sendAll (E.sent E') := by
  rw [sent_of_logs h.logs]
  exact h.bus

theorem Utters.sends {P : Nat → Prop} (h : Utters P E E') : E'.bus = E.bus.sendAll (E.sent E') := by
  cases h with
  | quiet hm => exact hm.sends
  | speaks _ hs =>
    obtain ⟨w, hw, hb, -⟩ := hs.said
    rw [sent_of_others hs.others, sentOf, gained_of_append hw]
    exact hb

/-- **What a step sends is what it adds to the logs of runs.** -/
theorem Step.sends (h : Step E E') :
    E'.bus = E.bus.sendAll (E.sent E') ∨ E.sent E' = [] ∧ Tunes E.bus E'.bus := by
  cases h with
  | turn j second => exact .inl (E.utters_turn j second).sends
  | strike ht => exact .inl (E.mute_strike _).sends
  | @pass t ht =>
    have hm : E.Mute { E with now := t } := mute_of_same rfl rfl
    exact .inl hm.sends
  | @request q hq =>
    rcases E.serve_mute q with hm | ⟨ht, hl⟩
    · exact .inl hm.sends
    · exact .inr ⟨sent_of_logs hl, ht⟩

/-- Something happens in runs only when a job takes its turn. -/
theorem Step.turn_or_silent (h : Step E E') :
    (∃ j second, E' = E.turn j second) ∨ ∀ r, (E'.runAt r).log = (E.runAt r).log := by
  cases h with
  | turn j second => exact .inl ⟨j, second, rfl⟩
  | strike ht => exact .inr (E.mute_strike _).logs
  | pass ht => exact .inr fun _ => rfl
  | @request q hq => exact .inr ((E.serve_mute q).elim (·.logs) (·.2))

/-- What a step adds to the log of a run tells of the run as it is afterwards. -/
theorem Step.dates (h : Step E E') (r : Nat) : ∀ m ∈ E.gained E' r, (E'.voice r).Dates m := by
  have hq : (E'.runAt r).log = (E.runAt r).log → ∀ m ∈ E.gained E' r, (E'.voice r).Dates m :=
    fun hl m hm => by
      rw [gained_of_eq hl] at hm
      cases hm
  rcases h.turn_or_silent with ⟨j, second, rfl⟩ | hl
  · cases E.utters_turn j second with
    | quiet hm => exact hq (hm.logs r)
    | @speaks n _ hs =>
      by_cases hn : r = n
      · subst hn
        obtain ⟨w, hw, -, hd⟩ := hs.said
        rw [gained_of_append hw]
        exact hd
      · exact hq (hs.others r hn)
  · exact hq (hl r)

end Engine

end ReactiveRules
