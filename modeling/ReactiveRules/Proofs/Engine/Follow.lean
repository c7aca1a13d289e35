import ReactiveRules.Proofs.Engine.Change

/-!
# `Proofs/Engine/Follow.lean` — what no step undoes

Runs and instances are never taken away. A run stays for its instance and its trigger, and its log
only grows; an instance keeps its definition, and once retired it stays retired. What a turn adds to
the log of a run is, of what it contains, also what the turn adds to the reports and to the history:
**a report is made, and a record is kept, exactly when the log says so** (`Scene.Follows.log`).
-/

set_option autoImplicit false

namespace ReactiveRules

namespace Milestone

/-- The report that a milestone of a run makes. -/
def report? (r : Nat) : Milestone → Option Report
  | .heard l s => l.report? s r
  | _ => none

/-- The record that a milestone leaves. -/
def record? : Milestone → Option RunRecord
  | .recorded x => some x
  | _ => none

end Milestone

/-- A run later on. -/
structure Run.Follows (x y : Run) : Prop where
  rule : y.rule = x.rule
  trigger : y.trigger = x.trigger
  client : y.client = x.client
  log : x.log <+: y.log

/-- An instance later on; `t` and `u` are the times between. -/
structure Instance.Follows (t u : Nat) (i j : Instance) : Prop where
  definition : j.definition = i.definition
  parallel : j.slot.parallel = i.slot.parallel
  retired : i.retired = true → j.retired = true
  lastCompleted : j.lastCompleted = i.lastCompleted ∨ ∃ v, t ≤ v ∧ v ≤ u ∧ j.lastCompleted = some v

theorem Run.Follows.refl (x : Run) : x.Follows x := ⟨rfl, rfl, rfl, List.prefix_refl _⟩

theorem Run.Follows.trans {x y z : Run} (h : x.Follows y) (h' : y.Follows z) : x.Follows z :=
  ⟨h'.rule.trans h.rule, h'.trigger.trans h.trigger, h'.client.trans h.client, h.log.trans h'.log⟩

theorem Instance.Follows.refl (t : Nat) (i : Instance) : i.Follows t t i :=
  ⟨rfl, rfl, id, .inl rfl⟩

theorem Instance.Follows.trans {t u v : Nat} {i j k : Instance} (htu : t ≤ u) (huv : u ≤ v)
    (h : i.Follows t u j) (h' : j.Follows u v k) : i.Follows t v k := by
  refine ⟨h'.definition.trans h.definition, h'.parallel.trans h.parallel,
    fun hr => h'.retired (h.retired hr), ?_⟩
  -- the later of two completions counts
  rcases h'.lastCompleted with hk | ⟨w, hw, hw', hk⟩
  · rcases h.lastCompleted with hj | ⟨w, hw, hw', hj⟩
    · exact .inl (hk.trans hj)
    · exact .inr ⟨w, hw, by omega, hk.trans hj⟩
  · exact .inr ⟨w, by omega, hw', hk⟩

/-! ## In a turn -/

/-- A scene later in a turn, at the time `now`. -/
structure Scene.Follows (now : Nat) (S S' : Scene) : Prop where
  number : S'.number = S.number
  rule : S'.run.rule = S.run.rule
  trigger : S'.run.trigger = S.run.trigger
  client : S'.run.client = S.run.client
  log : ∃ w, S'.run.log = S.run.log ++ w ∧
    S'.reports = S.reports ++ w.filterMap (·.report? S.number) ∧
    S'.history = (w.filterMap (·.record?)).foldl History.push S.history
  inst : S.rule.Follows now now S'.rule

namespace Scene

variable {now : Nat} {S S' S'' : Scene}

theorem Follows.trans (h : S.Follows now S') (h' : S'.Follows now S'') : S.Follows now S'' := by
  obtain ⟨w, hw, hr, hh⟩ := h.log
  obtain ⟨w', hw', hr', hh'⟩ := h'.log
  refine ⟨h'.number.trans h.number, h'.rule.trans h.rule, h'.trigger.trans h.trigger,
    h'.client.trans h.client, ⟨w ++ w', ?_, ?_, ?_⟩,
    h.inst.trans (Nat.le_refl _) (Nat.le_refl _) h'.inst⟩
  · rw [hw', hw, List.append_assoc]
  · rw [hr', hr, h.number, List.filterMap_append, List.append_assoc]
  · rw [hh', hh, List.filterMap_append, List.foldl_append]

theorem Follows.run (h : S.Follows now S') : S.run.Follows S'.run := by
  obtain ⟨w, hw, -, -⟩ := h.log
  exact ⟨h.rule, h.trigger, h.client, hw ▸ List.prefix_append _ _⟩

/-! ### Single changes -/

variable (S)

theorem follows_mark {m : Milestone} (hm : m.report? S.number = none) (hm' : m.record? = none) :
    S.Follows now (S.mark m) :=
  ⟨rfl, rfl, rfl, rfl, ⟨[m], rfl, by simp [mark, hm], by simp [mark, hm']⟩, .refl _ _⟩

theorem follows_setStage (s : Stage) : S.Follows now (S.setStage s) :=
  ⟨rfl, rfl, rfl, rfl, ⟨[], by simp [setStage]⟩, .refl _ _⟩

theorem follows_mapRule {f : Rule → Rule} (hd : (f S.rule.toRule).definition = S.rule.definition)
    (hr : (f S.rule.toRule).retired = S.rule.retired)
    (hl : (f S.rule.toRule).lastCompleted = S.rule.lastCompleted ∨
      (f S.rule.toRule).lastCompleted = some now) : S.Follows now (S.mapRule f) := by
  refine ⟨rfl, rfl, rfl, rfl, ⟨[], by simp [mapRule]⟩, hd, rfl, fun h => hr.trans h, ?_⟩
  exact hl.imp id fun h => ⟨now, Nat.le_refl _, Nat.le_refl _, h⟩

theorem follows_mapSlot {f : Slot Nat → Slot Nat}
    (hf : (f S.rule.slot).parallel = S.rule.slot.parallel) : S.Follows now (S.mapSlot f) :=
  ⟨rfl, rfl, rfl, rfl, ⟨[], by simp [mapSlot]⟩, rfl, hf, id, .inl rfl⟩

theorem follows_announce (s : RunSignal) (ls : List Listener) : S.Follows now (S.announce s ls) := by
  refine ⟨rfl, rfl, rfl, rfl, ⟨ls.map (.heard · s), rfl, ?_, ?_⟩, .refl _ _⟩
  · simp [announce, List.filterMap_map, Milestone.report?]
  · simp [announce, List.filterMap_map, Milestone.record?]

theorem follows_tell (s : RunSignal) : S.Follows now (S.tell s) := S.follows_announce s _

theorem follows_record (condition executed : Bool) (error : Option RuleError) :
    S.Follows now (S.record now condition executed error) :=
  ⟨rfl, rfl, rfl, rfl, ⟨[_], rfl, by simp [record, mark, Milestone.report?],
    by simp [record, Milestone.record?]⟩, .refl _ _⟩

theorem freed_parallel : S.freed.parallel = S.rule.slot.parallel := by
  unfold freed
  split <;> rfl

theorem follows_finish (o : Outcome) : S.Follows now (S.finish o) :=
  ⟨rfl, rfl, rfl, rfl, ⟨[], by simp [finish]⟩, rfl, S.freed_parallel, id, .inl rfl⟩

theorem claim?_parallel {s t : Slot Nat} (h : s.claim? = some t) : t.parallel = s.parallel := by
  unfold Slot.claim? at h
  split at h
  · cases h
    rfl
  · cases h

theorem follows_hold {slot : Slot Nat} (hs : S.rule.slot.claim? = some slot) :
    S.Follows now (S.hold slot) :=
  ⟨rfl, rfl, rfl, rfl, ⟨[], by simp [hold]⟩, rfl, claim?_parallel hs, id, .inl rfl⟩

/-! ### Ways to end -/

theorem follows_breakOff (m : String) : S.Follows now (S.breakOff now m) :=
  (((S.follows_mapRule rfl rfl (.inl rfl)).trans (follows_tell _ _)).trans
    (follows_record _ _ _ _)).trans (follows_finish _ _)

theorem follows_conclude (result : Except RuleError Json) : S.Follows now (S.conclude now result) := by
  have hm : S.Follows now (S.mark .concluded) := S.follows_mark rfl rfl
  cases result with
  | ok v =>
    exact ((((hm.trans (follows_mapRule _ rfl rfl (.inr rfl))).trans (follows_tell _ _)).trans
      (follows_tell _ _)).trans (follows_record _ _ _ _)).trans (follows_finish _ _)
  | error e =>
    exact (((hm.trans (follows_mapRule _ rfl rfl (.inr rfl))).trans (follows_tell _ _)).trans
      (follows_record _ _ _ _)).trans (follows_finish _ _)

theorem follows_forgo : S.Follows now (S.forgo now) :=
  ((S.follows_tell _).trans (follows_record _ _ _ _)).trans (follows_finish _ _)

theorem follows_rest : S.Follows now (S.rest now) :=
  ((S.follows_tell _).trans (follows_record _ _ _ _)).trans (follows_finish _ _)

theorem follows_misjudge (e : ScriptError) : S.Follows now (S.misjudge now e) :=
  (((S.follows_tell _).trans (follows_tell _ _)).trans (follows_record _ _ _ _)).trans
    (follows_finish _ _)

theorem follows_decline : S.Follows now (S.decline now) :=
  (((S.follows_tell _).trans (follows_tell _ _)).trans (follows_record _ _ _ _)).trans
    (follows_finish _ _)

theorem follows_abandon : S.Follows now S.abandon :=
  ⟨rfl, rfl, rfl, rfl, ⟨[], by simp [abandon]⟩, rfl, (S.mapSlot _).freed_parallel, id, .inl rfl⟩

/-! ### Ways to go on -/

theorem follows_accept : S.Follows now (S.accept now) :=
  ⟨rfl, rfl, rfl, rfl, ⟨[], by simp [accept]⟩, rfl, rfl, id, .inl rfl⟩

theorem follows_defer : S.Follows now (S.defer now) :=
  ⟨rfl, rfl, rfl, rfl, ⟨[], by simp [defer]⟩, rfl, rfl, id, .inl rfl⟩

theorem follows_begin (ls : List Listener) : S.Follows now (S.begin now ls) := by
  have hb : S.Follows now { S with
      run := { S.run with started := now, audience := ls, log := S.run.log ++ [.began] } } :=
    ⟨rfl, rfl, rfl, rfl, ⟨[.began], rfl, by simp [Milestone.report?], by simp [Milestone.record?]⟩,
      .refl _ _⟩
  exact hb.trans (follows_announce _ _ _)

theorem follows_judge : S.Follows now S.judge :=
  (S.follows_mark rfl rfl).trans (follows_mapRule _ rfl rfl (.inl rfl))

variable {S}

theorem Acts.follows (h : Acts now S S') : S.Follows now S' := by
  have hm : S.Follows now (S.mark .attempted) := S.follows_mark rfl rfl
  cases h with
  | unread e => exact hm.trans (follows_conclude _ _)
  | acting e => exact hm.trans (follows_setStage _ _)

theorem Proceeds.follows (h : Proceeds now S S') : S.Follows now S' := by
  cases h with
  | rests hr => exact S.follows_rest
  | delays hr hd => exact (S.follows_tell _).trans (follows_setStage _ _)
  | acts hr hd ha => exact (S.follows_tell _).trans ha.follows

theorem Decides.follows (h : Decides now S S') : S.Follows now S' := by
  cases h with
  | misjudged e => exact S.follows_misjudge e
  | declines => exact S.follows_decline
  | proceeds hp => exact (S.follows_tell _).trans hp.follows

theorem Judges.follows (h : Judges now S S') : S.Follows now S' := by
  cases h with
  | unread e => exact S.follows_judge.trans (follows_misjudge _ e)
  | judging e => exact S.follows_judge.trans (follows_setStage _ _)

theorem Starts.follows {ls : List Listener} (h : Starts now ls S S') : S.Follows now S' := by
  cases h with
  | rests hr => exact S.follows_finish _
  | broke hr hv => exact (S.follows_begin ls).trans (follows_breakOff _ _)
  | vetoed hr hv => exact (S.follows_begin ls).trans (follows_finish _ _)
  | judges hr hv hj => exact (S.follows_begin ls).trans hj.follows

theorem Claims.follows {ls : List Listener} (h : Claims now ls S S') : S.Follows now S' := by
  cases h with
  | retired h => exact S.follows_finish _
  | starts h hs ha => exact (S.follows_hold hs).trans ha.follows
  | busy h hs ha => exact S.follows_finish _
  | waits h hs ha =>
    refine (S.follows_mapSlot ?_).trans (follows_setStage _ _)
    rfl

/-- **Whatever a turn does, it follows on what was.** -/
theorem Turn.follows {ls : List Listener} (h : Turn now ls S S') : S.Follows now S' := by
  cases h with
  | paused hs hp => exact S.follows_finish _
  | rests hs hp hr => exact S.follows_finish _
  | arrives hs hp hr hd ha => exact S.follows_accept.trans ha.follows
  | fires hs hd ha =>
    refine (S.follows_mapRule ?_ ?_ (.inl ?_)).trans ha.follows
    · rw [Rule.finishPending_eq]
    · rw [Rule.finishPending_eq]
    · rw [Rule.finishPending_eq]
  | cancelled hs => exact S.follows_setStage _
  | gains hs hw hc ha => exact (S.follows_hold hc).trans ha.follows
  | leaves hs hr =>
    refine (S.follows_mapSlot ?_).trans (follows_finish _ _)
    rfl
  | queues hs hw hc hr =>
    apply S.follows_mapSlot
    rfl
  | acts hs hd ha => exact ha.follows
  | forgoes hs hr => exact S.follows_forgo
  | broke hs m => exact S.follows_breakOff m
  | decides hs ha => exact ha.follows
  | concludes hs result => exact S.follows_conclude result

/-- Nothing more happens in a run that is over. -/
theorem Turn.not_over {ls : List Listener} (h : Turn now ls S S') : S.run.isOver = false := by
  unfold Run.isOver
  cases h <;> simp_all

end Scene

/-! ## From step to step -/

/-- A core later on. -/
structure Core.Follows (C C' : Core) : Prop where
  now : C.now ≤ C'.now
  runs : C.runs.length ≤ C'.runs.length
  instances : C.instances.length ≤ C'.instances.length
  run : ∀ r, r < C.runs.length → (C.runAt r).Follows (C'.runAt r)
  rule : ∀ n, n < C.instances.length → (C.ruleAt n).Follows C.now C'.now (C'.ruleAt n)

namespace Core

variable {C C' C'' : Core}

theorem Follows.refl (C : Core) : C.Follows C :=
  ⟨Nat.le_refl _, Nat.le_refl _, Nat.le_refl _, fun _ _ => .refl _, fun _ _ => .refl _ _⟩

theorem Follows.trans (h : C.Follows C') (h' : C'.Follows C'') : C.Follows C'' where
  now := Nat.le_trans h.now h'.now
  runs := Nat.le_trans h.runs h'.runs
  instances := Nat.le_trans h.instances h'.instances
  run := fun r hr => (h.run r hr).trans (h'.run r (Nat.lt_of_lt_of_le hr h.runs))
  rule := fun n hn =>
    (h.rule n hn).trans h.now h'.now (h'.rule n (Nat.lt_of_lt_of_le hn h.instances))

/-- A turn changes the run that takes it and the instance it is for; the others stay. -/
theorem follows_put {S : Scene} {r : Nat} (hr : r < C.runs.length)
    (hn : (C.runAt r).rule < C.instances.length) (hS : (C.scene r).Follows C.now S) :
    C.Follows (C.put S) := by
  have hnum : S.number = r := hS.number
  have hrule : S.run.rule = (C.runAt r).rule := hS.rule
  refine ⟨Nat.le_refl _, by simp [put], by simp [put], ?_, ?_⟩
  · intro m _
    rw [runAt_put C (hnum ▸ hr)]
    split
    · next hm =>
      rw [← hm, hnum]
      exact hS.run
    · exact .refl _
  · intro m _
    rw [ruleAt_put C (hrule ▸ hn)]
    split
    · next hm =>
      rw [← hm, hrule]
      exact hS.inst
    · exact .refl _ _

theorem follows_cancelDeferral (C : Core) (p : Nat) : C.Follows (C.cancelDeferral p) := by
  refine ⟨Nat.le_refl _, by simp [cancelDeferral], Nat.le_refl _, ?_, fun _ _ => .refl _ _⟩
  intro r _
  rw [runAt_cancelDeferral]
  split
  · unfold Run.cancelDeferral
    split
    · exact ⟨rfl, rfl, rfl, List.prefix_refl _⟩
    · exact .refl _
  · exact .refl _

theorem follows_cancelPending (C : Core) (p : Option (Nat × Nat)) :
    C.Follows (C.cancelPending p) := by
  cases p with
  | none => exact .refl C
  | some p => exact C.follows_cancelDeferral p.2

/-- A run that has just arrived has nothing to be cancelled. -/
theorem scene_cancelPending (C : Core) {r : Nat} (p : Option (Nat × Nat))
    (hs : (C.runAt r).stage = .arriving) : (C.cancelPending p).scene r = C.scene r := by
  cases p with
  | none => rfl
  | some p =>
    have hx : (C.cancelDeferral p.2).runAt r = C.runAt r := by
      rw [runAt_cancelDeferral]
      split
      · simp [Run.cancelDeferral, hs]
      · rfl
    show (C.cancelDeferral p.2).scene r = C.scene r
    unfold scene
    rw [hx]
    rfl

/-- Changing an instance as instances can change. -/
theorem follows_modifyInstance (C : Core) {n : Nat} {f : Instance → Instance}
    (hf : ∀ i : Instance, C.instances[n]? = some i → i.Follows C.now C.now (f i)) :
    C.Follows (C.modifyInstance n f) := by
  refine ⟨Nat.le_refl _, Nat.le_refl _, by simp [modifyInstance], fun _ _ => .refl _, ?_⟩
  intro m hm
  rw [C.ruleAt_modifyInstance hm]
  split
  · next hn =>
    subst hn
    exact hf _ (by simp [ruleAt, hm])
  · exact .refl _ _

theorem follows_addRun (C : Core) (x : Run) : C.Follows { C with runs := C.runs ++ [x] } := by
  refine ⟨Nat.le_refl _, by simp, Nat.le_refl _, ?_, fun _ _ => .refl _ _⟩
  intro r hr
  have hx : ({ C with runs := C.runs ++ [x] } : Core).runAt r = C.runAt r := getD_append _ hr
  rw [hx]
  exact .refl _

theorem follows_addInstance (C : Core) (i : Instance) (rs : List (String × Nat)) :
    C.Follows { C with instances := C.instances ++ [i], registered := rs } := by
  refine ⟨Nat.le_refl _, Nat.le_refl _, by simp, fun _ _ => .refl _, ?_⟩
  intro n hn
  have hx : ({ C with instances := C.instances ++ [i], registered := rs } : Core).ruleAt n
      = C.ruleAt n := getD_append _ hn
  rw [hx]
  exact .refl _ _

theorem follows_retire (C : Core) (n : Nat) (p : Option (Nat × Nat)) : C.Follows (C.retire n p) := by
  refine (C.follows_modifyInstance fun i _ => ?_).trans (follows_cancelPending _ p)
  exact ⟨rfl, rfl, fun _ => rfl, .inl rfl⟩

theorem follows_unguard (C : Core) (name : String) : C.Follows (C.unguard name) := by
  unfold unguard
  split
  · next n _ =>
    have hm := C.follows_modifyInstance (n := n) (f := fun i => { i with slot := i.slot.release.1 })
      fun i _ => ⟨rfl, rfl, id, .inl rfl⟩
    exact ⟨hm.now, hm.runs, hm.instances, hm.run, hm.rule⟩
  · exact .refl C

/-- Two alike instances follow each other at any time. -/
theorem alike_follows {i j : Instance} {t u : Nat} (h : i.Alike j) : i.Follows t u j := by
  rw [h.rest]
  exact ⟨rfl, rfl, id, .inl rfl⟩

theorem follows_alike {is : List Instance} {t : Nat} (ht : C.now ≤ t)
    (ha : List.Forall₂ Instance.Alike C.instances is) :
    C.Follows { C with now := t, instances := is } := by
  refine ⟨ht, Nat.le_refl _, Nat.le_of_eq ha.length_eq, fun _ _ => .refl _, ?_⟩
  exact fun n _ => alike_follows (alike_getD ha n)

/-- **Whatever a change does, it follows on what was.** -/
theorem Change.follows (h : C.Change C') (hv : C.Valid) : C.Follows C' := by
  cases h with
  | rest => exact .refl C
  | turns hr ht => exact follows_put hr (hv.run _ hr) ht.follows
  | @defers r hr hd =>
    -- whoever is cancelled, it is not the run that takes the turn
    have hs := C.scene_cancelPending (C.scene r).rule.pending hd.stage
    have hc := C.follows_cancelPending (C.scene r).rule.pending
    refine hc.trans (follows_put (r := r) (Nat.lt_of_lt_of_le hr hc.runs) ?_ ?_)
    · rw [(hc.run r hr).rule]
      exact Nat.lt_of_lt_of_le (hv.run r hr) hc.instances
    · rw [hs, cancelPending_now]
      exact (Scene.follows_accept _).trans (Scene.follows_defer _)
  | spawns hn t a c => exact C.follows_addRun _
  | @abandons r hr ha hs => exact follows_put hr (hv.run _ hr) (Scene.follows_abandon _)
  | adds d => exact C.follows_addInstance _ _
  | @defines d hd =>
    unfold define
    split
    · exact (C.follows_addInstance _ _).trans (follows_retire _ _ _)
    · exact C.follows_addInstance _ _
  | @deregisters id n hn =>
    have hr : C.Follows { C with registered := C.registered.filter (·.1 != id) } :=
      ⟨Nat.le_refl _, Nat.le_refl _, Nat.le_refl _, fun _ _ => .refl _, fun _ _ => .refl _ _⟩
    exact hr.trans (follows_retire _ _ _)
  | tweaks ha => exact follows_alike (Nat.le_refl _) ha
  | @guards n slot hs name =>
    have hm : C.Follows (C.modifyInstance n fun i => { i with slot }) := by
      refine C.follows_modifyInstance fun i hi => ?_
      have hc : i.slot.claim? = some slot := by simpa [hi] using hs
      exact ⟨rfl, Scene.claim?_parallel hc, id, .inl rfl⟩
    -- the name is all that is left, and no run or instance knows of it
    have hu := hm.trans (follows_unguard _ name)
    exact ⟨hu.now, hu.runs, hu.instances, hu.run, hu.rule⟩
  | unguards name => exact C.follows_unguard name
  | listens ls =>
    exact ⟨Nat.le_refl _, Nat.le_refl _, Nat.le_refl _, fun _ _ => .refl _, fun _ _ => .refl _ _⟩

/-! ### What is new -/

@[simp] theorem cancelPending_runs_length (C : Core) (p : Option (Nat × Nat)) :
    (C.cancelPending p).runs.length = C.runs.length := by
  cases p with
  | none => rfl
  | some p => simp [cancelPending, cancelDeferral]

@[simp] theorem cancelPending_registered (C : Core) (p : Option (Nat × Nat)) :
    (C.cancelPending p).registered = C.registered := by
  cases p <;> rfl

@[simp] theorem cancelPending_instances (C : Core) (p : Option (Nat × Nat)) :
    (C.cancelPending p).instances = C.instances := by
  cases p <;> rfl

@[simp] theorem unguard_runs (C : Core) (name : String) : (C.unguard name).runs = C.runs := by
  unfold unguard
  split <;> rfl

@[simp] theorem unguard_registered (C : Core) (name : String) :
    (C.unguard name).registered = C.registered := by
  unfold unguard
  split <;> rfl

theorem ruleAt_cancelPending (C : Core) (p : Option (Nat × Nat)) (n : Nat) :
    (C.cancelPending p).ruleAt n = C.ruleAt n := by
  simp [ruleAt]

/-! ### Who is in force -/

theorem find?_filter_ne (rs : List (String × Nat)) {other id : String} (h : other ≠ id) :
    (rs.filter (·.1 != other)).find? (·.1 == id) = rs.find? (·.1 == id) := by
  induction rs with
  | nil => rfl
  | cons p rest ih =>
    by_cases hp : p.1 = other
    · have hid : p.1 ≠ id := hp ▸ h
      simp [hp, h, ih]
    · by_cases hid : p.1 = id
      · simp [hid, Ne.symm h]
      · simp [hp, hid, ih]

theorem find?_filter_self (rs : List (String × Nat)) (id : String) :
    (rs.filter (·.1 != id)).find? (·.1 == id) = none := by
  rw [List.find?_eq_none]
  intro p hp
  simpa using (List.mem_filter.mp hp).2

theorem number?_eq_of_registered {C C' : Core} (h : C'.registered = C.registered) (id : String) :
    C'.number? id = C.number? id := by
  unfold number?
  rw [h]

/-- A definition puts its instance in force for its id, and for no other. -/
theorem number?_define (C : Core) (d : Definition) (id : String) :
    (C.define d).number? id = if d.id = id then some C.instances.length else C.number? id := by
  have hreg : (C.define d).registered = (C.enforce d).registered := by
    unfold define
    split <;> simp [retire, modifyInstance]
  rw [number?_eq_of_registered hreg, number?, enforce, List.find?_append]
  split
  · next hid =>
    subst hid
    rw [find?_filter_self]
    simp
  · next hid =>
    have hone : [(d.id, C.instances.length)].find? (·.1 == id) = none := by simp [hid]
    rw [find?_filter_ne _ hid, hone, Option.or_none]
    rfl

theorem number?_deregister (C : Core) (other : String) (n : Nat) (id : String) :
    (C.deregister other n).number? id = if other = id then none else C.number? id := by
  have hreg : (C.deregister other n).registered = C.registered.filter (·.1 != other) := by
    simp [deregister, retire, modifyInstance]
  rw [number?, hreg]
  split
  · next hid =>
    subst hid
    rw [find?_filter_self]
    rfl
  · next hid =>
    rw [find?_filter_ne _ hid]
    rfl

/-! ### What is added -/

/-- A change begins at most one run, and then changes nothing else. -/
theorem Change.runs_length (h : C.Change C') :
    C'.runs.length = C.runs.length ∨
      ∃ n t a c, n < C.instances.length ∧ C' = C.spawn n t a c := by
  cases h with
  | spawns hn t a c => exact .inr ⟨_, t, a, c, hn, rfl⟩
  | turns hr ht => exact .inl (by simp [put])
  | defers hr hd => exact .inl (by simp [put])
  | abandons hr ha hs => exact .inl (by simp [put])
  | defines hd =>
    refine .inl ?_
    unfold define
    split <;> simp [retire, modifyInstance, enforce]
  | deregisters hn => exact .inl (by simp [deregister, retire, modifyInstance])
  | guards hs name => exact .inl (by simp [guard, modifyInstance])
  | unguards name => exact .inl (by simp)
  | _ => exact .inl rfl

/-- Whatever a change puts in force for an id is an instance of that id that it makes. -/
theorem Change.registered (h : C.Change C') {p : String × Nat} (hp : p ∈ C'.registered) :
    p ∈ C.registered ∨ p.2 = C.instances.length ∧ C.instances.length < C'.instances.length ∧
      (C'.ruleAt p.2).id = p.1 := by
  cases h with
  | defers hr hd => exact .inl (by simpa using hp)
  | @defines d hd =>
    have hreg : (C.define d).registered = (C.enforce d).registered := by
      unfold define
      split <;> simp [retire, modifyInstance]
    have hlen : C.instances.length < (C.define d).instances.length := by
      unfold define
      split <;> simp [retire, modifyInstance, enforce]
    have hnew : ((C.define d).ruleAt C.instances.length).id = d.id := by
      have henf : ((C.enforce d).ruleAt C.instances.length).id = d.id := by
        simp [enforce, ruleAt, Instance.ofDefinition, Rule.ofDefinition, Rule.id]
      unfold define
      split
      · rw [retire, ruleAt_cancelPending]
        unfold modifyInstance ruleAt
        rcases getD_modify_or (C.enforce d).instances _ (.mapRule Rule.retire) default
          C.instances.length with hm | ⟨-, hm⟩ <;> rw [hm] <;> exact henf
      · exact henf
    rw [hreg] at hp
    rcases List.mem_append.mp hp with hp | hp
    · exact .inl (List.mem_filter.mp hp).1
    · obtain rfl := List.mem_singleton.mp hp
      exact .inr ⟨rfl, hlen, hnew⟩
  | @deregisters id n hn =>
    have hp' : p ∈ C.registered.filter (·.1 != id) := by
      simpa [deregister, retire, modifyInstance] using hp
    exact .inl (List.mem_filter.mp hp').1
  | guards hs name =>
    refine .inl ?_
    simpa [guard, modifyInstance] using hp
  | unguards name => exact .inl (by simpa using hp)
  | _ => exact .inl hp

/-- Every number stays that of an instance. -/
theorem Valid.change (hv : C.Valid) (h : C.Change C') : C'.Valid := by
  have hf := h.follows hv
  constructor
  · intro r hr
    by_cases hr' : r < C.runs.length
    · rw [(hf.run r hr').rule]
      exact Nat.lt_of_lt_of_le (hv.run r hr') hf.instances
    · -- only a run that begins is new
      rcases h.runs_length with hl | ⟨n, t, a, c, hn, rfl⟩
      · omega
      · have hl : r = C.runs.length := by simp [spawn] at hr; omega
        subst hl
        simpa [spawn, runAt] using hn
  · intro p hp
    rcases h.registered hp with hp | ⟨hp, hl, -⟩
    · exact Nat.lt_of_lt_of_le (hv.registered p hp) hf.instances
    · omega

theorem Valid.cancelPending (hv : C.Valid) (p : Option (Nat × Nat)) : (C.cancelPending p).Valid := by
  have hf := C.follows_cancelPending p
  constructor
  · intro r hr
    have hr' : r < C.runs.length := by simpa using hr
    rw [(hf.run r hr').rule]
    exact Nat.lt_of_lt_of_le (hv.run r hr') hf.instances
  · intro q hq
    exact Nat.lt_of_lt_of_le (hv.registered q (by simpa using hq)) hf.instances

/-! ### Steps -/

theorem Step.follows (h : C.Step C') (hv : C.Valid) : C.Follows C' := by
  cases h with
  | change h => exact h.follows hv
  | forgets =>
    exact ⟨Nat.le_refl _, Nat.le_refl _, Nat.le_refl _, fun _ _ => .refl _, fun _ _ => .refl _ _⟩
  | pass ht ha => exact follows_alike ht ha

theorem Valid.step (hv : C.Valid) (h : C.Step C') : C'.Valid := by
  cases h with
  | change h => exact hv.change h
  | forgets => exact ⟨hv.run, hv.registered⟩
  | pass ht ha =>
    exact ⟨fun r hr => ha.length_eq ▸ hv.run r hr, fun p hp => ha.length_eq ▸ hv.registered p hp⟩

end Core

end ReactiveRules
