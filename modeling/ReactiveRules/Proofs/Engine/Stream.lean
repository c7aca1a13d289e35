import Mathlib.Tactic.IntervalCases
import ReactiveRules.Proofs.Engine.Verdict

/-!
# `Proofs/Engine/Stream.lean` — the stream of events and the history tell the same

A run is reported twice: its publishers broadcast events while it goes on, and at its end it leaves
a record. **What has been broadcast about a run that has left a record is what the record stands
for** (`Engine.Attests`), whichever way the run has ended, and nothing is broadcast about a run that
was forbidden or has not begun. All that is needed besides the record is what the evaluator found
the condition to be, because the record of a condition that could not be judged has an error that is
not broadcast.
-/

set_option autoImplicit false

namespace ReactiveRules

/-- The events that a record stands for, if this is what the condition was found to be. -/
def RunRecord.events (x : RunRecord) (verdict : Option (Except ScriptError Bool)) :
    List EventKind :=
  (match verdict with
    | some (.ok _) => [.evaluated x.condition]
    | _ => []) ++
  (if x.executed && x.success then [.executed x.duration] else []) ++
  match verdict, x.error with
    | some (.error _), _ => []
    | _, some m => [.failed m]
    | _, none => []

/-- A record stands for no run that has both been executed and failed. -/
theorem RunRecord.events_apart {x : RunRecord} (hx : x.success = x.error.isNone)
    {verdict : Option (Except ScriptError Bool)} {duration : UInt64} {error : String}
    (hd : .executed duration ∈ x.events verdict) : .failed error ∉ x.events verdict := by
  intro hf
  unfold events at hd hf
  cases hs : x.error with
  | none => rcases verdict with _ | (_ | _) <;> simp_all
  | some e => rcases verdict with _ | (_ | _) <;> simp_all

/-- A listener that broadcasts. -/
def Listener.isPublisher (l : Listener) : Bool :=
  match l.role with
  | .publisher => true
  | .reporter _ => false

/-! ## What a log makes known -/

namespace Engine.Voice

variable (v : Voice)

/-- What is broadcast of a callback. -/
def broadcast? (c : Listener × RunSignal) : Option (Message Nat) := v.message? (.heard c.1 c.2)

theorem filterMap_message (log : List Milestone) : log.filterMap v.message?
    = (log.filterMap Milestone.callback?).filterMap v.broadcast? := by
  rw [List.filterMap_filterMap]
  refine List.filterMap_congr fun m _ => ?_
  cases m <;> rfl

/-- Each publisher broadcasts what all listeners are told. -/
theorem broadcast_told (ls : List Listener) (s : RunSignal) :
    (ls.map (·, s)).filterMap v.broadcast? = (eventKind? v.age s).toList.flatMap fun kind =>
      List.replicate (ls.countP Listener.isPublisher) (v.message kind) := by
  induction ls with
  | nil => cases eventKind? v.age s <;> rfl
  | cons l rest ih =>
    rw [List.map_cons, List.countP_cons]
    cases hk : eventKind? v.age s <;> cases hl : l.role <;>
      simp [hk, hl, ih, broadcast?, message?, Listener.isPublisher, List.replicate_succ]

theorem broadcast_word (ls : List Listener) (w : List RunSignal) :
    (w.flatMap fun s => ls.map (·, s)).filterMap v.broadcast?
      = (w.filterMap (eventKind? v.age)).flatMap fun kind =>
        List.replicate (ls.countP Listener.isPublisher) (v.message kind) := by
  induction w with
  | nil => rfl
  | cons s rest ih =>
    rw [List.flatMap_cons, List.filterMap_append, broadcast_told, ih, List.filterMap_cons]
    cases eventKind? v.age s <;> simp

/-- That listeners are asked is not broadcast. -/
theorem filterMap_asked (ls : List Listener) (cs : List (Listener × RunSignal)) :
    (ls.map (·, RunSignal.beforeEvaluate) ++ cs).filterMap v.broadcast? = cs.filterMap v.broadcast? := by
  rw [List.filterMap_append, broadcast_told]
  rfl

end Engine.Voice

/-- What listeners have heard of a judgement, read off the callbacks. -/
theorem verdict_eq_callbacks (x : Run) :
    x.verdict = x.callbacks.findSome? fun c => c.2.verdict? := by
  rw [Run.verdict, Run.callbacks]
  induction x.log with
  | nil => rfl
  | cons m rest ih =>
    cases m <;> simp [List.findSome?_cons, List.filterMap_cons, Milestone.verdict?, Milestone.callback?, ih]

theorem verdict_word {ls : List Listener} (hl : ls ≠ []) (w : List RunSignal) :
    (w.flatMap fun s => ls.map (·, s)).findSome? (fun c => c.2.verdict?)
      = w.findSome? RunSignal.verdict? := by
  obtain ⟨l, rest, rfl⟩ := List.exists_cons_of_ne_nil hl
  induction w with
  | nil => rfl
  | cons s w ih =>
    rw [List.flatMap_cons, List.findSome?_append, ih, List.findSome?_cons]
    have hrest : s.verdict? = none →
        (rest.map (·, s)).findSome? (fun c : Listener × RunSignal => c.2.verdict?) = none := by
      intro hs
      rw [List.findSome?_eq_none_iff]
      rintro c hc
      obtain ⟨l, -, rfl⟩ := List.mem_map.mp hc
      exact hs
    cases hs : s.verdict? with
    | none => simp [hs, hrest hs]
    | some y => simp [hs]

/-- Listeners are asked before there is a judgement. -/
theorem findSome?_asked (ls : List Listener) (cs : List (Listener × RunSignal)) :
    (ls.map (·, RunSignal.beforeEvaluate) ++ cs).findSome? (fun c => c.2.verdict?)
      = cs.findSome? fun c => c.2.verdict? := by
  have hasked : (ls.map (·, RunSignal.beforeEvaluate)).findSome?
      (fun c : Listener × RunSignal => c.2.verdict?) = none := by
    rw [List.findSome?_map]
    exact List.findSome?_eq_none_iff.mpr fun _ _ => rfl
  rw [List.findSome?_append, hasked, Option.none_or]

/-- **A word tells what the record stands for.** -/
theorem CallbackWord.events {id : String} {w : List RunSignal} {o : Outcome}
    {condition executed : Bool} {error : Option RuleError}
    (hw : CallbackWord id w o condition executed error) {x : RunRecord}
    (hc : x.condition = condition) (he : x.executed = executed) (hs : x.success = error.isNone)
    (hx : x.error = error.map RuleError.message) :
    w.filterMap (Engine.eventKind? x.duration.toNat) = x.events (w.findSome? RunSignal.verdict?) ∧
      (∀ b, w.findSome? RunSignal.verdict? = some (.ok b) → b = x.condition) ∧
      ∀ e, w.findSome? RunSignal.verdict? = some (.error e) →
        x.error = some (RuleError.script e).message := by
  cases hw <;>
    simp [RunRecord.events, Engine.eventKind?, RunSignal.verdict?, List.filterMap_cons,
      List.findSome?_cons, hc, he, hs, hx]

/-! ## What stands in the log of a run -/

namespace Start

variable (F : Start)

theorem heard_acting {l : Listener} {s : RunSignal} (h : Milestone.heard l s ∈ F.acting) :
    s = .beforeEvaluate ∨ s = .afterEvaluate true ∨ s = .beforeExecute := by
  simp only [acting, standing, judging, opening, told, List.mem_append, List.mem_cons,
    List.mem_map, Milestone.heard.injEq, List.not_mem_nil, or_false, reduceCtorEq, false_or] at h
  aesop

theorem recorded_acting (x : RunRecord) : Milestone.recorded x ∉ F.acting := by
  simp [acting, standing, judging, opening, told]

theorem judging_subset : F.judging ⊆ F.acting := by
  intro m hm
  simp only [acting, standing, List.mem_append]
  exact .inl (.inl (.inl hm))

theorem standing_subset : F.standing ⊆ F.acting := fun _ hm => List.mem_append_left _ hm

end Start

namespace Run.Accounts

variable {d : Definition} {x : Run}

/-- A run that has not ended with an outcome has come as far as its action, and no further. -/
theorem log_subset (h : x.Accounts d) (ho : ∀ o, x.stage ≠ .ended (.outcome o)) :
    x.log ⊆ x.start.acting := by
  have hnil : x.log = [] → x.log ⊆ x.start.acting := fun hl => hl ▸ List.nil_subset _
  unfold Accounts at h
  cases hs : x.stage with
  | judging e => rw [hs] at h; exact h.2 ▸ Start.judging_subset _
  | delayed due => rw [hs] at h; exact h.2 ▸ Start.standing_subset _
  | acting e dl => rw [hs] at h; exact h.2 ▸ List.Subset.refl _
  | ended e =>
    cases e with
    | outcome o => exact absurd hs (ho o)
    | cancelled => rw [hs] at h; exact hnil h
    | abandoned =>
      rw [hs] at h
      rcases h with hl | ⟨-, hl | hl⟩
      · exact hnil hl
      · exact hl ▸ Start.standing_subset _
      · exact hl ▸ List.Subset.refl _
  | _ => rw [hs] at h; exact hnil h

/-- A run that has left a record is over. -/
theorem over_of_recorded (h : x.Accounts d) {y : RunRecord} (hy : .recorded y ∈ x.log) :
    ∃ o, x.stage = .ended (.outcome o) := by
  by_contra ho
  exact x.start.recorded_acting y (h.log_subset (fun o hs => ho ⟨o, hs⟩) hy)

/-- A run whose listeners have heard of a performed action has left a record. -/
theorem recorded_of_executed (h : x.Accounts d) {l : Listener} {v : Json}
    (hl : .heard l (.afterExecute v) ∈ x.log) : ∃ y, .recorded y ∈ x.log := by
  by_cases ho : ∃ o, x.stage = .ended (.outcome o)
  · obtain ⟨o, hs⟩ := ho
    unfold Accounts at h
    rw [hs] at h
    generalize x.log = log at h hl
    cases h with
    | dropped why => cases hl
    | vetoed hv =>
      have hm : Milestone.heard l (.afterExecute v) ∈ x.start.acting := by
        refine Start.judging_subset _ ?_
        exact List.mem_append_left _ hl
      simpa using Start.heard_acting _ hm
    | broke now hv => exact ⟨_, List.mem_append_right _ List.mem_cons_self⟩
    | ended now hv hw => exact ⟨_, List.mem_append_right _ List.mem_cons_self⟩
  · have hm := h.log_subset (fun o hs => ho ⟨o, hs⟩) hl
    simpa using Start.heard_acting _ hm

end Run.Accounts

namespace Engine

variable {E E' : Engine} {r : Nat}

/-- A run that has ended says nothing more. -/
theorem Step.gained_of_over (h : Step E E') (hv : E.core.Valid) {e : Ending}
    (hs : (E.runAt r).stage = .ended e) : E.gained E' r = [] := by
  by_contra hg
  have hlog : (E'.core.runAt r).log ≠ (E.core.runAt r).log := fun hl => hg (gained_of_eq hl)
  obtain ⟨-, S, ht, -⟩ := (h.core hv).turn_of_log hlog
  have ho := ht.not_over
  rw [Run.isOver, show (E.core.scene r).run.stage = .ended e from hs] at ho
  cases ho

theorem lt_of_log (hl : (E.runAt r).log ≠ []) : r < E.runs.length := by
  by_contra hr
  exact hl (congrArg Run.log (Core.runAt_of_le (C := E.core) (Nat.le_of_not_lt hr)))

/-- Later on, the same is said of a run, but for how long it has been going on. -/
theorem Steps.voice (h : Steps E E') (hE : E.Reachable) (hr : r < E.runs.length) :
    E'.voice r = { E.voice r with age := E'.age r } := by
  have hf := h.follows hE
  have hrun := hf.run r hr
  have hrule : (E'.runAt r).rule = (E.runAt r).rule := hrun.rule
  have htrig : (E'.runAt r).trigger = (E.runAt r).trigger := hrun.trigger
  have hdef : (E'.ruleOf r).definition = (E.ruleOf r).definition := by
    have hd := (hf.rule _ (hE.valid.run r hr)).definition
    rw [← hrun.rule] at hd
    exact hd.trans (by rw [hrun.rule]; rfl)
  unfold Engine.voice Rule.id
  rw [hdef, htrig]

/-! ## Courses -/

/-- All that is sent in a course. -/
def stream (E : Nat → Engine) (last : Nat) : List (Message Nat) :=
  (List.range last).flatMap fun k => (E k).sent (E (k + 1))

/-- What is sent in a course that carries the number of a run. -/
def streamOf (E : Nat → Engine) (last r : Nat) : List (Message Nat) :=
  (stream E last).filter (·.correlation == some r)

theorem correlation_sentOf {m : Message Nat} (hm : m ∈ E.sentOf E' r) :
    ∃ kind, m = (E'.voice r).message kind := by
  obtain ⟨x, -, hx⟩ := List.mem_filterMap.mp hm
  unfold Voice.message? at hx
  split at hx
  · split at hx
    · obtain ⟨kind, -, rfl⟩ := Option.map_eq_some_iff.mp hx
      exact ⟨kind, rfl⟩
    · cases hx
  · cases hx

/-- The messages that carry the number of a run are those sent about it. -/
theorem streamOf_eq (E : Nat → Engine) (last r : Nat) :
    streamOf E last r = (List.range last).flatMap fun k => (E k).sentOf (E (k + 1)) r := by
  unfold streamOf stream
  rw [List.filter_flatMap]
  refine List.flatMap_congr fun k _ => ?_
  have hm : ∀ m, ((E k).sentOf (E (k + 1)) m).filter (·.correlation == some r)
      = if m = r then (E k).sentOf (E (k + 1)) r else [] := by
    intro m
    split
    · next hmr =>
      subst hmr
      refine List.filter_eq_self.mpr fun x hx => ?_
      obtain ⟨kind, rfl⟩ := correlation_sentOf hx
      exact beq_self_eq_true _
    · next hmr =>
      refine List.filter_eq_nil_iff.mpr fun x hx => ?_
      obtain ⟨kind, rfl⟩ := correlation_sentOf hx
      simpa [Voice.message, voice] using hmr
  unfold sent
  rw [List.filter_flatMap]
  simp only [hm]
  rw [flatMap_range_of_others (r := r) fun m hmr => if_neg hmr, if_pos rfl]
  split
  · rfl
  · next hr => exact (sentOf_of_le (Nat.le_of_not_lt hr)).symm

namespace Trail

variable {E : Nat → Engine} {last : Nat}

/-- The log of a run is what has been added to it. -/
theorem log (h : Trail E last) (r : Nat) : ((E last).runAt r).log
    = (List.range last).flatMap fun k => (E k).gained (E (k + 1)) r := by
  have hk : ∀ k ≤ last, ((E k).runAt r).log
      = (List.range k).flatMap fun k => (E k).gained (E (k + 1)) r := by
    intro k hk
    induction k with
    | zero =>
      obtain ⟨_, _, _, _, _, _, h0⟩ := h.fresh
      rw [h0]
      rfl
    | succ k ih =>
      have hk' := Nat.le_of_succ_le hk
      rw [List.range_succ, List.flatMap_append, List.flatMap_singleton, ← ih hk']
      exact (h.step k hk).log (h.reachable hk').valid r
  exact hk last (Nat.le_refl _)

/-- If one voice says all that has been said of a run, it says what the log says. -/
theorem streamOf_of_voice (h : Trail E last) {v : Voice}
    (hv : ∀ k < last, ∀ m ∈ (E k).gained (E (k + 1)) r,
      ((E (k + 1)).voice r).message? m = v.message? m) :
    streamOf E last r = ((E last).runAt r).log.filterMap v.message? := by
  rw [streamOf_eq, h.log r, List.filterMap_flatMap]
  exact List.flatMap_congr fun k hk => List.filterMap_congr fun m hm =>
    hv k (List.mem_range.mp hk) m hm

theorem mem_log_of_gained (h : Trail E last) {k : Nat} (hk : k < last) {m : Milestone}
    (hm : m ∈ (E k).gained (E (k + 1)) r) : m ∈ ((E last).runAt r).log := by
  rw [h.log r]
  exact List.mem_flatMap.mpr ⟨k, List.mem_range.mpr hk, hm⟩

/-- Nothing is broadcast about a run whose listeners have only been asked. -/
theorem streamOf_nil (h : Trail E last)
    (hq : ∀ l s, .heard l s ∈ ((E last).runAt r).log → s = .beforeEvaluate) :
    streamOf E last r = [] := by
  rw [streamOf_eq, List.flatMap_eq_nil_iff]
  intro k hk
  refine List.filterMap_eq_nil_iff.mpr fun m hm => ?_
  have hmem := h.mem_log_of_gained (List.mem_range.mp hk) hm
  cases m with
  | heard l s =>
    obtain rfl := hq l s hmem
    cases hl : l.role <;> simp [Voice.message?, hl, eventKind?]
  | _ => rfl

/-- How long the run has been going on when its action is broadcast is what its record says. -/
theorem duration (h : Trail E last) {x : RunRecord} (hx : ((E last).runAt r).records = [x]) {k : Nat}
    (hk : k < last) {l : Listener} {v : Json}
    (hm : .heard l (.afterExecute v) ∈ (E k).gained (E (k + 1)) r) :
    UInt64.ofNat ((E (k + 1)).age r) = x.duration := by
  have hE := h.reachable (Nat.le_of_lt hk)
  have hE' := h.reachable (Nat.succ_le_of_lt hk)
  have hs := h.step k hk
  have hlog := hs.log hE.valid r
  have hmem : .heard l (.afterExecute v) ∈ ((E (k + 1)).runAt r).log :=
    hlog ▸ List.mem_append_right _ hm
  -- whoever hears of it hears of it when the run ends
  obtain ⟨y, hy⟩ := (hE'.accounts r (lt_of_log (List.ne_nil_of_mem hmem))).recorded_of_executed hmem
  have hg : .recorded y ∈ (E k).gained (E (k + 1)) r := by
    have hy' : .recorded y ∈ ((E (k + 1)).runAt r).log := hy
    rw [hlog] at hy'
    rcases List.mem_append.mp hy' with hold | hnew
    · obtain ⟨o, ho⟩ :=
        (hE.accounts r (lt_of_log (List.ne_nil_of_mem hold))).over_of_recorded hold
      rw [hs.gained_of_over hE.valid ho] at hm
      cases hm
    · exact hnew
  have hyx : y ∈ ((E last).runAt r).records :=
    List.mem_filterMap.mpr ⟨_, h.mem_log_of_gained hk hg, rfl⟩
  rw [hx, List.mem_singleton] at hyx
  rw [← hyx]
  exact (hs.dates r _ hg y rfl).symm

/-- What has been broadcast about a run that has left a record is what its listeners have heard. -/
theorem streamOf_recorded (h : Trail E last) {x : RunRecord}
    (hx : ((E last).runAt r).records = [x]) :
    streamOf E last r = ((E last).runAt r).callbacks.filterMap
      ({ (E last).voice r with age := x.duration.toNat } : Voice).broadcast? := by
  rw [Run.callbacks, ← Voice.filterMap_message]
  refine h.streamOf_of_voice fun k hk m hm => ?_
  have hE' := h.reachable (Nat.succ_le_of_lt hk)
  have hlt : r < (E (k + 1)).runs.length := by
    refine lt_of_log (List.ne_nil_of_mem (a := m) ?_)
    rw [(h.step k hk).log (h.reachable (Nat.le_of_lt hk)).valid r]
    exact List.mem_append_right _ hm
  have hv := (h.steps (Nat.succ_le_of_lt hk) (Nat.le_refl last)).voice hE' hlt
  rw [hv]
  cases m with
  | heard l s =>
    cases hl : l.role with
    | reporter full => simp only [Voice.message?, hl]
    | publisher =>
      cases s with
      | afterExecute v =>
        have hd := h.duration hx hk hm
        simp only [Voice.message?, hl, eventKind?, Option.map_some]
        rw [show ((E (k + 1)).voice r).age = (E (k + 1)).age r from rfl, hd, UInt64.ofNat_toNat]
        rfl
      | _ =>
        simp only [Voice.message?, hl, eventKind?]
        rfl
  | _ => rfl

end Trail

/-- The stream says of a run what its record says. -/
structure Attests (E : Nat → Engine) (last r : Nat) (x : RunRecord) : Prop where
  /-- The run has left no other record. -/
  only : ((E last).runAt r).records = [x]
  /-- Each publisher has broadcast the events that the record stands for, in order and nothing else,
  with the id and the label of the rule, the node and the number of the run. -/
  events : ∃ verdict, (∀ y, verdict = some y ↔ ∃ k < last, Finds (E k) (E (k + 1)) r y) ∧
    (∀ condition, verdict = some (.ok condition) → condition = x.condition) ∧
    (∀ e, verdict = some (.error e) → x.error = some (RuleError.script e).message) ∧
    streamOf E last r = (x.events verdict).flatMap fun kind =>
      List.replicate (((E last).runAt r).audience.countP Listener.isPublisher)
        (((E last).voice r).message kind)
  /-- No run has both been executed and failed. -/
  apart : ∀ m ∈ streamOf E last r, ∀ m' ∈ streamOf E last r, ∀ duration error,
    m.event.kind = .executed duration → m'.event.kind ≠ .failed error

namespace Trail

variable {E : Nat → Engine} {last : Nat}

/-- Events that are those of the record, in order, say what the record says. -/
theorem agrees_of_events (h : Trail E last) {x : RunRecord}
    (hx : ((E last).runAt r).records = [x]) (hs : x.success = x.error.isNone)
    (ha : ((E last).runAt r).audience ≠ [])
    (hok : ∀ b, ((E last).runAt r).verdict = some (.ok b) → b = x.condition)
    (herr : ∀ e, ((E last).runAt r).verdict = some (.error e) →
      x.error = some (RuleError.script e).message)
    (hev : streamOf E last r = (x.events ((E last).runAt r).verdict).flatMap fun kind =>
      List.replicate (((E last).runAt r).audience.countP Listener.isPublisher)
        (((E last).voice r).message kind)) : Attests E last r x := by
  refine ⟨hx, ⟨_, h.verdict_iff ha, hok, herr, hev⟩, ?_⟩
  have hkind : ∀ m ∈ streamOf E last r, m.event.kind ∈ x.events ((E last).runAt r).verdict := by
    intro m hm
    rw [hev] at hm
    obtain ⟨kind, hk, hm⟩ := List.mem_flatMap.mp hm
    rw [List.eq_of_mem_replicate hm]
    exact hk
  intro m hm m' hm' duration error hd hf
  exact RunRecord.events_apart hs (hd ▸ hkind m hm) (hf ▸ hkind m' hm')

/-- A run that a listener broke off is reported as failed, and nothing else. -/
theorem attests_broken (h : Trail E last) (ha : ((E last).runAt r).audience ≠ []) {asked : List Listener}
    {m : String} {d : Definition} {now : Nat}
    (hc : ((E last).runAt r).callbacks = asked.map (·, .beforeEvaluate) ++
      ((E last).runAt r).audience.map (·, .failure (.panicked m)))
    (hr : ((E last).runAt r).records
      = [((E last).runAt r).recordAt d now false false (some (.panicked m))]) :
    Attests E last r (((E last).runAt r).recordAt d now false false (some (.panicked m))) := by
  have hv : ((E last).runAt r).verdict = none := by
    rw [verdict_eq_callbacks, hc, findSome?_asked, List.findSome?_map]
    exact List.findSome?_eq_none_iff.mpr fun _ _ => rfl
  refine h.agrees_of_events hr rfl ha ?_ ?_ ?_
  · rw [hv]; exact fun _ h => by cases h
  · rw [hv]; exact fun _ h => by cases h
  · rw [h.streamOf_recorded hr, hc, Voice.filterMap_asked, Voice.broadcast_told, hv]
    rfl

/-- A run that went on to its end is reported as the word of its callbacks says. -/
theorem attests_ended (h : Trail E last) (ha : ((E last).runAt r).audience ≠ []) {id : String}
    {w : List RunSignal} {o : Outcome} {condition executed : Bool} {error : Option RuleError}
    {d : Definition} {now : Nat} (hw : CallbackWord id w o condition executed error)
    (hc : ((E last).runAt r).callbacks = ((E last).runAt r).audience.map (·, .beforeEvaluate) ++
      w.flatMap fun s => ((E last).runAt r).audience.map (·, s))
    (hr : ((E last).runAt r).records
      = [((E last).runAt r).recordAt d now condition executed error]) :
    Attests E last r (((E last).runAt r).recordAt d now condition executed error) := by
  have hv : ((E last).runAt r).verdict = w.findSome? RunSignal.verdict? := by
    rw [verdict_eq_callbacks, hc, findSome?_asked, verdict_word ha]
  obtain ⟨hev, hok, herr⟩ := hw.events
    (x := ((E last).runAt r).recordAt d now condition executed error) rfl rfl rfl rfl
  refine h.agrees_of_events hr ?_ ha ?_ ?_ ?_
  · cases error <;> rfl
  · rw [hv]; exact hok
  · rw [hv]; exact herr
  · rw [h.streamOf_recorded hr, hc, Voice.filterMap_asked, Voice.broadcast_word, hev, hv]
    rfl

theorem agrees (h : Trail E last) {x : RunRecord} (hx : x ∈ ((E last).runAt r).records)
    (hp : ∃ l ∈ ((E last).runAt r).audience, l.isPublisher = true) : Attests E last r x := by
  have hE := h.reachable (Nat.le_refl last)
  have hmem : .recorded x ∈ ((E last).runAt r).log := by
    obtain ⟨m, hm, hr⟩ := List.mem_filterMap.mp hx
    cases m with
    | recorded y => cases hr; exact hm
    | _ => cases hr
  have hne := List.ne_nil_of_mem hmem
  have hacc := hE.accounts r (lt_of_log hne)
  have ha : ((E last).runAt r).audience ≠ [] := by
    obtain ⟨l, hl, -⟩ := hp
    exact List.ne_nil_of_mem hl
  obtain ⟨o, ho⟩ := hacc.over_of_recorded hmem
  have honly : ∀ y, ((E last).runAt r).records = [y] → x = y := fun y hr =>
    List.mem_singleton.mp (hr ▸ hx)
  cases hacc.conduct (hacc.log_nil_or_hasBegun.resolve_left hne) with
  | goesOn hs => rw [show ((E last).core.runAt r).stage = _ from ho] at hs; cases hs
  | abandoned hs => rw [show ((E last).core.runAt r).stage = _ from ho] at hs; cases hs
  | forbidden hl hs hc hr =>
    have hr' : ((E last).runAt r).records = [] := hr
    rw [hr'] at hx
    cases hx
  | broken now hl hs hc hr =>
    rw [honly _ hr]
    exact h.attests_broken ha hc hr
  | ended now hl hw hs hc hr =>
    rw [honly _ hr]
    exact h.attests_ended ha hw hc hr

/-- Nothing is broadcast about a run that was forbidden or has not begun. -/
theorem streamOf_of_vetoed (h : Trail E last)
    (hr : ((E last).runAt r).stage = .ended (.outcome .vetoed) ∨
      ((E last).runAt r).hasBegun = false) : streamOf E last r = [] := by
  have hE := h.reachable (Nat.le_refl last)
  refine h.streamOf_nil fun l s hm => ?_
  have hne := List.ne_nil_of_mem hm
  have hacc := hE.accounts r (lt_of_log hne)
  have hb := hacc.log_nil_or_hasBegun.resolve_left hne
  rcases hr with hs | hn
  · have hcall : (l, s) ∈ ((E last).runAt r).callbacks := List.mem_filterMap.mpr ⟨_, hm, rfl⟩
    have hs' : ((E last).core.runAt r).stage = .ended (.outcome .vetoed) := hs
    cases hacc.conduct hb with
    | goesOn hi => rw [hs'] at hi; cases hi
    | abandoned hst => rw [hs'] at hst; cases hst
    | @forbidden pre l' hl hst hc =>
      have hc' : ((E last).runAt r).callbacks = (pre ++ [l']).map (·, .beforeEvaluate) := hc
      rw [hc'] at hcall
      obtain ⟨_, -, hls⟩ := List.mem_map.mp hcall
      exact (congrArg Prod.snd hls).symm
    | broken now hl hst => rw [hs'] at hst; cases hst
    | ended now hl hw hst => rw [hs'] at hst; cases hst; cases hw
  · have hb' : ((E last).runAt r).hasBegun = true := hb
    exact absurd (hb'.symm.trans hn) Bool.noConfusion

/-- **The stream of events and the history tell the same.** In every step, what is sent and what is
recorded is what the step adds to the logs of the runs, and a run has the listeners of its start. The
messages that carry the number of a run are those sent about it. Nothing is sent about a run that was
forbidden or has not begun; if a run has left a record and one of its listeners broadcasts, the two
agree. -/
theorem stream_agrees (h : Trail E last) :
    (∀ k < last,
      ((E (k + 1)).bus = (E k).bus.sendAll ((E k).sent (E (k + 1))) ∨
        (E k).sent (E (k + 1)) = [] ∧ Tunes (E k).bus (E (k + 1)).bus) ∧
      (E k).core.Publishes (E (k + 1)).core ∧
      ∀ r, ((E k).runAt r).hasBegun = false → ((E (k + 1)).runAt r).hasBegun = true →
        ((E last).runAt r).audience = (E k).listeners) ∧
    ∀ r,
      streamOf E last r = (List.range last).flatMap (fun k => (E k).sentOf (E (k + 1)) r) ∧
      (((E last).runAt r).stage = .ended (.outcome .vetoed) ∨
        ((E last).runAt r).hasBegun = false → streamOf E last r = []) ∧
      ∀ x ∈ ((E last).runAt r).records,
        (∃ l ∈ ((E last).runAt r).audience, l.isPublisher = true) → Attests E last r x := by
  refine ⟨fun k hk => ?_, fun r => ⟨streamOf_eq E last r, h.streamOf_of_vetoed,
    fun x hx hp => h.agrees hx hp⟩⟩
  have hE := h.reachable (Nat.le_of_lt hk)
  have hE' := h.reachable (Nat.succ_le_of_lt hk)
  have hc := (h.step k hk).core hE.valid
  refine ⟨(h.step k hk).sends, hc.publishes, fun r hb hb' => ?_⟩
  exact ((h.steps (Nat.succ_le_of_lt hk) (Nat.le_refl last)).audience hE' hb').trans
    (hc.audience_new hE.accounts hb hb')

end Trail

/-- A rule is defined and notified while one listens to the bus. -/
def publicTrail : Nat → Engine
  | 0 => blank
  | 1 => blank.serve (.listen { number := 0, name := "p", role := .publisher })
  | 2 => (publicTrail 1).serve (.subscribe .all)
  | 3 => (publicTrail 2).serve (.define prompt)
  | 4 => (publicTrail 3).serve (.notify 0 change .dropIfBusy)
  | k + 5 => (publicTrail (k + 4)).next

theorem trail_public : Trail publicTrail 7 := by
  refine ⟨fresh_blank, fun k hk => ?_⟩
  interval_cases k
  · exact .request (q := .listen { number := 0, name := "p", role := .publisher }) trivial
  · exact .request (q := .subscribe .all) trivial
  · exact .request (q := .define prompt) trivial
  · exact .request (admits_notify (n := 0) (by decide +kernel) change .dropIfBusy)
  · exact step_next (by decide +kernel)
  · exact step_next (by decide +kernel)
  · exact step_next (by decide +kernel)

/-- What the run leaves behind. -/
def publicRecord : RunRecord :=
  { rule := "r1", label := "L", aspect := .attribute, condition := true, executed := true
    success := true, error := none, duration := 0 }

/-- The record and the two events that have been sent agree. -/
theorem public_agrees : Attests publicTrail 7 0 publicRecord ∧ (publicTrail 7).bus.sent = 2 ∧
    (streamOf publicTrail 7 0).map (·.event.kind) = [.evaluated true, .executed 0] :=
  ⟨(trail_public.stream_agrees.2 0).2.2 publicRecord (by decide +kernel) (by decide +kernel),
    by decide +kernel, by decide +kernel⟩

end Engine

end ReactiveRules
