import ReactiveRules.Proofs.Engine.Callbacks
import ReactiveRules.Proofs.Engine.Deferral

/-!
# `Proofs/Engine/Counters.lean` — what rules count

A rule counts its notifications when it admits them, and what became of their runs when these end: in
turns of runs, in four places. **Between any two turns each count is the number of the runs it is of**
(`Core.Tallied`). A turn counts what it makes of its run (`Scene.Turn.counted`), and no other change
touches a count or a run that is counted (`Core.Idles`).

With its count of notifications a rule marks that it has facts which its condition has not been
judged on. `Scene.Marks` says what a turn does to the mark.
-/

set_option autoImplicit false

namespace ReactiveRules

/-- The outcome that the run ended with. -/
def Run.outcome? (x : Run) : Option Outcome :=
  match x.stage with
  | .ended (.outcome o) => some o
  | _ => none

def Outcome.isFailed : Outcome → Bool
  | .failed _ => true
  | _ => false

/-- A count that a rule keeps. -/
inductive Counter where
  | triggers
  | executions
  | failures
  deriving DecidableEq, Repr

namespace Counter

def value : Counter → Rule → Nat
  | .triggers, r => r.triggers
  | .executions, r => r.executions
  | .failures, r => r.failures

/-- Is a run with the outcome one of those counted? -/
def countsOutcome : Counter → Outcome → Bool
  | .triggers, _ => false
  | .executions, o => o.executed
  | .failures, o => o.isFailed

/-- Is the run one of those counted? -/
def counts (κ : Counter) (x : Run) : Bool :=
  κ == .triggers && x.admitted || x.outcome?.any κ.countsOutcome

variable (κ : Counter)

theorem counts_triggers : counts .triggers = (·.admitted) := by
  funext x
  cases ho : x.outcome? <;> simp [counts, countsOutcome, ho]

theorem counts_congr {x y : Run} (ha : y.admitted = x.admitted) (ho : y.outcome? = x.outcome?) :
    κ.counts y = κ.counts x := by
  rw [counts, counts, ha, ho]

/-- A run that goes on counts at most as a notification. -/
theorem counts_open {x : Run} (ho : x.outcome? = none) :
    κ.counts x = (κ == .triggers && x.admitted) := by
  simp [counts, ho]

@[simp] theorem counts_cancelDeferral (x : Run) : κ.counts x.cancelDeferral = κ.counts x := by
  refine κ.counts_congr x.cancelDeferral_admitted ?_
  unfold Run.cancelDeferral
  split
  · next hs => simp [Run.outcome?, hs]
  · rfl

/-- A notification that has just come is not counted. -/
theorem counts_of_arriving {x : Run} (hs : x.stage = .arriving) (ha : x.admitted = false) :
    κ.counts x = false := by
  have ho : x.outcome? = none := by simp [Run.outcome?, hs]
  rw [κ.counts_open ho, ha, Bool.and_false]

end Counter

/-! ## Turns -/

namespace Scene

variable {now : Nat} {S S' : Scene} {ls : List Listener}

/-- What a count has gained is what the run has come to be. -/
def Counted (S S' : Scene) : Prop :=
  ∀ κ : Counter, κ.value S'.rule.toRule + (κ.counts S.run).toNat
    = κ.value S.rule.toRule + (κ.counts S'.run).toNat

theorem Counted.trans {S'' : Scene} (h : S.Counted S') (h' : S'.Counted S'') : S.Counted S'' := by
  intro κ
  have h₁ := h κ
  have h₂ := h' κ
  omega

/-- Nothing that is counted has changed. -/
theorem counted_same (hv : ∀ κ : Counter, κ.value S'.rule.toRule = κ.value S.rule.toRule)
    (ha : S'.run.admitted = S.run.admitted) (ho : S'.run.outcome? = S.run.outcome?) :
    S.Counted S' := by
  intro κ
  rw [hv, κ.counts_congr ha ho]

/-- The run has ended, and it is counted as what its outcome is. -/
theorem counted_ends {o : Outcome} (ho : S.run.outcome? = none) (ho' : S'.run.outcome? = some o)
    (ha : S'.run.admitted = S.run.admitted)
    (hv : ∀ κ : Counter, κ.value S'.rule.toRule
      = κ.value S.rule.toRule + (κ.countsOutcome o).toNat) : S.Counted S' := by
  intro κ
  have hc : κ.counts S'.run = (κ == .triggers && S.run.admitted || κ.countsOutcome o) := by
    rw [Counter.counts, ho', ha, Option.any_some]
  rw [hv, hc, κ.counts_open ho]
  -- a notification is not counted once more when its run ends
  cases κ with
  | triggers => simp [Counter.countsOutcome]
  | executions => rfl
  | failures => rfl

theorem counted_breakOff (ho : S.run.outcome? = none) (now : Nat) (m : String) :
    S.Counted (S.breakOff now m) :=
  counted_ends ho rfl rfl fun κ => by cases κ <;> rfl

theorem counted_conclude (ho : S.run.outcome? = none) (now : Nat) (result : Except RuleError Json) :
    S.Counted (S.conclude now result) := by
  cases result with
  | ok v => exact counted_ends ho rfl rfl fun κ => by cases κ <;> rfl
  | error e => exact counted_ends ho rfl rfl fun κ => by cases κ <;> rfl

theorem counted_misjudge (ho : S.run.outcome? = none) (now : Nat) (e : ScriptError) :
    S.Counted (S.misjudge now e) :=
  counted_ends ho rfl rfl fun κ => by cases κ <;> rfl

theorem counted_accept (ho : S.run.outcome? = none) (ha : S.run.admitted = false) (now : Nat) :
    S.Counted (S.accept now) := by
  intro κ
  have ho' : (S.accept now).run.outcome? = none := ho
  rw [κ.counts_open ho, κ.counts_open ho', ha]
  cases κ <;> rfl

theorem Acts.counted (h : Acts now S S') (ho : S.run.outcome? = none) : S.Counted S' := by
  cases h with
  | unread e => exact counted_conclude (S := S.mark .attempted) ho now _
  | acting e => exact counted_same (fun _ => rfl) rfl ho.symm

theorem Decides.counted (h : Decides now S S') (ho : S.run.outcome? = none) : S.Counted S' := by
  cases h with
  | misjudged e => exact counted_misjudge ho now e
  | declines => exact counted_ends ho rfl rfl fun κ => by cases κ <;> rfl
  | proceeds hp =>
    cases hp with
    | rests hr => exact counted_ends ho rfl rfl fun κ => by cases κ <;> rfl
    | delays hr hd => exact counted_same (fun _ => rfl) rfl ho.symm
    | acts hr hd ha => exact ha.counted ho

theorem Starts.counted (h : Starts now ls S S') (ho : S.run.outcome? = none) : S.Counted S' := by
  cases h with
  | rests hr => exact counted_ends ho rfl rfl fun κ => by cases κ <;> rfl
  | broke hr hv => exact counted_breakOff (S := S.begin now ls) ho now _
  | vetoed hr hv => exact counted_ends ho rfl rfl fun κ => by cases κ <;> rfl
  | judges hr hv hj =>
    have hm : S.Counted (S.begin now ls).judge := counted_same (fun κ => by cases κ <;> rfl) rfl rfl
    cases hj with
    | unread e => exact hm.trans (counted_misjudge (S := (S.begin now ls).judge) ho now e)
    | judging e => exact hm.trans (counted_same (fun _ => rfl) rfl ho.symm)

theorem Claims.counted (h : Claims now ls S S') (ho : S.run.outcome? = none) : S.Counted S' := by
  cases h with
  | retired h => exact counted_ends ho rfl rfl fun κ => by cases κ <;> rfl
  | starts h hs ha => exact ha.counted ho
  | busy h hs ha => exact counted_ends ho rfl rfl fun κ => by cases κ <;> rfl
  | waits h hs ha => exact counted_same (fun _ => rfl) rfl ho.symm

/-- **A turn counts what it makes of its run.** -/
theorem Turn.counted (h : Turn now ls S S')
    (hu : S.run.stage = .arriving → S.run.admitted = false) : S.Counted S' := by
  have ho : S.run.outcome? = none := by
    have hover := h.not_over
    unfold Run.outcome?
    split
    · next hs => simp [Run.isOver, hs] at hover
    · rfl
  cases h with
  | paused hs hp => exact counted_ends ho rfl rfl fun κ => by cases κ <;> rfl
  | rests hs hp hr => exact counted_ends ho rfl rfl fun κ => by cases κ <;> rfl
  | arrives hs hp hr hd ha => exact (counted_accept ho (hu hs) now).trans (ha.counted ho)
  | @fires g due c hs hd _ ha =>
    have hf : S.Counted (S.mapRule (·.finishPending g)) := by
      refine counted_same (fun κ => ?_) rfl rfl
      simp only [mapRule, Instance.mapRule, Rule.finishPending_eq]
      cases κ <;> rfl
    exact hf.trans (ha.counted ho)
  | cancelled hs => exact counted_same (fun _ => rfl) rfl ho.symm
  | gains hs hw hc ha => exact ha.counted ho
  | leaves hs hr => exact counted_ends ho rfl rfl fun κ => by cases κ <;> rfl
  | queues hs hw hc hr => exact counted_same (fun _ => rfl) rfl rfl
  | acts hs hd ha => exact ha.counted ho
  | forgoes hs hr => exact counted_ends ho rfl rfl fun κ => by cases κ <;> rfl
  | broke hs m => exact counted_breakOff ho now m
  | decides hs ha => exact ha.counted ho
  | concludes hs result => exact counted_conclude ho now result

theorem counted_defer (hs : S.run.stage = .arriving) (ha : S.run.admitted = false) (now : Nat) :
    S.Counted ((S.accept now).defer now) := by
  have ho : S.run.outcome? = none := by simp [Run.outcome?, hs]
  exact (counted_accept ho ha now).trans (counted_same (fun κ => by cases κ <;> rfl) rfl ho.symm)

theorem counted_abandon (hs : S.run.stage.isSuspended = true) : S.Counted S.abandon := by
  have ho : S.run.outcome? = none := by
    unfold Run.outcome?
    split
    · next he => rw [he] at hs; cases hs
    · rfl
  exact counted_same (fun _ => rfl) rfl ho.symm

/-! ### The mark

An admission sets the mark that the condition is to be judged, and a judgement takes it away. -/

/-- What a turn does to the mark. -/
inductive Marks (S S' : Scene) : Prop
  | judges (hj : S.run.judgements < S'.run.judgements) (hd : S'.rule.dirty = false)
  | admits (hj : S'.run.judgements = S.run.judgements) (ha : S.run.admitted = false)
    (ha' : S'.run.admitted = true) (hd : S'.rule.dirty = true)
  | keeps (hj : S'.run.judgements = S.run.judgements) (ha : S'.run.admitted = S.run.admitted)
    (hd : S'.rule.dirty = S.rule.dirty)

theorem Acts.judgements (h : Acts now S S') :
    S'.run.judgements = S.run.judgements ∧ S'.rule.dirty = S.rule.dirty := by
  have hq := Milestone.silent_isJudgement
  have hm : (S.mark .attempted).run.judgements = S.run.judgements := S.count_mark .attempted
  cases h with
  | unread e => exact ⟨((S.mark .attempted).count_conclude hq _).trans hm, rfl⟩
  | acting e => exact ⟨hm, rfl⟩

theorem Decides.judgements (h : Decides now S S') :
    S'.run.judgements = S.run.judgements ∧ S'.rule.dirty = S.rule.dirty := by
  have hq := Milestone.silent_isJudgement
  have ht : (S.tell (.afterEvaluate true)).run.judgements = S.run.judgements := S.count_tell hq _
  cases h with
  | misjudged e => exact ⟨S.count_misjudge hq e, rfl⟩
  | declines => exact ⟨S.count_decline hq, rfl⟩
  | proceeds hp =>
    have ht' := ((S.tell (.afterEvaluate true)).count_tell hq .beforeExecute).trans ht
    cases hp with
    | rests hr => exact ⟨((S.tell (.afterEvaluate true)).count_rest hq).trans ht, rfl⟩
    | delays hr hd => exact ⟨ht', rfl⟩
    | acts hr hd ha => exact ⟨ha.judgements.1.trans ht', ha.judgements.2⟩

/-- A run that starts has its condition judged, and the mark with it, or nothing. -/
theorem Starts.judgements (h : Starts now ls S S') :
    S.run.judgements < S'.run.judgements ∧ S'.rule.dirty = false ∨
      S'.run.judgements = S.run.judgements ∧ S'.rule.dirty = S.rule.dirty := by
  have hq := Milestone.silent_isJudgement
  have hb : (S.begin now ls).run.judgements = S.run.judgements := S.count_begin hq ls
  have hj : (S.begin now ls).judge.run.judgements = S.run.judgements + 1 :=
    (S.begin now ls).count_judge.trans (congrArg (· + 1) hb)
  cases h with
  | rests hr => exact .inr ⟨rfl, rfl⟩
  | broke hr hv => exact .inr ⟨((S.begin now ls).count_breakOff hq _).trans hb, rfl⟩
  | vetoed hr hv => exact .inr ⟨hb, rfl⟩
  | judges hr hv hj' =>
    cases hj' with
    | unread e =>
      have hm : ((S.begin now ls).judge.misjudge now e).run.judgements = S.run.judgements + 1 :=
        ((S.begin now ls).judge.count_misjudge hq e).trans hj
      exact .inl ⟨Nat.lt_of_succ_le (Nat.le_of_eq hm.symm), rfl⟩
    | judging e => exact .inl ⟨Nat.lt_of_succ_le (Nat.le_of_eq hj.symm), rfl⟩

theorem Claims.judgements (h : Claims now ls S S') :
    S.run.judgements < S'.run.judgements ∧ S'.rule.dirty = false ∨
      S'.run.judgements = S.run.judgements ∧ S'.rule.dirty = S.rule.dirty := by
  cases h with
  | retired h => exact .inr ⟨rfl, rfl⟩
  | starts h hs ha => exact ha.judgements
  | busy h hs ha => exact .inr ⟨rfl, rfl⟩
  | waits h hs ha => exact .inr ⟨rfl, rfl⟩

theorem Turn.marks (h : Turn now ls S S')
    (hu : S.run.stage = .arriving → S.run.admitted = false) : S.Marks S' := by
  have hq := Milestone.silent_isJudgement
  cases h with
  | paused hs hp => exact .keeps rfl rfl rfl
  | rests hs hp hr => exact .keeps rfl rfl rfl
  | arrives hs hp hr hd ha =>
    rcases ha.judgements with ⟨hj, hd'⟩ | ⟨hj, hd'⟩
    · exact .judges hj hd'
    · exact .admits hj (hu hs) ha.calm.admitted hd'
  | @fires g due c hs hd _ ha =>
    rcases ha.judgements with ⟨hj, hd'⟩ | ⟨hj, hd'⟩
    · exact .judges hj hd'
    · refine .keeps hj ha.calm.admitted (hd'.trans ?_)
      simp only [mapRule, Instance.mapRule, Rule.finishPending_eq]
  | cancelled hs => exact .keeps rfl rfl rfl
  | gains hs hw hc ha =>
    rcases ha.judgements with ⟨hj, hd'⟩ | ⟨hj, hd'⟩
    · exact .judges hj hd'
    · exact .keeps hj ((S.calm_hold _).trans ha.calm).admitted hd'
  | leaves hs hr => exact .keeps rfl rfl rfl
  | queues hs hw hc hr => exact .keeps rfl rfl rfl
  | acts hs hd ha => exact .keeps ha.judgements.1 ha.calm.admitted ha.judgements.2
  | forgoes hs hr => exact .keeps (S.count_forgo hq) rfl rfl
  | broke hs m => exact .keeps (S.count_breakOff hq m) rfl rfl
  | decides hs ha => exact .keeps ha.judgements.1 ha.calm.admitted ha.judgements.2
  | concludes hs result =>
    refine .keeps (S.count_conclude hq result) (S.calm_conclude now result).admitted ?_
    cases result with
    | ok v => rfl
    | error e => rfl

end Scene

/-! ## Steps -/

/-- No count and no mark has changed. -/
structure Instance.Tallies (i j : Instance) : Prop where
  value : ∀ κ : Counter, κ.value j.toRule = κ.value i.toRule
  dirty : j.dirty = i.dirty

theorem Instance.Tallies.refl (i : Instance) : i.Tallies i := ⟨fun _ => rfl, rfl⟩

theorem Instance.Tallies.trans {i j k : Instance} (h : i.Tallies j) (h' : j.Tallies k) :
    i.Tallies k :=
  ⟨fun κ => (h'.value κ).trans (h.value κ), h'.dirty.trans h.dirty⟩

theorem Instance.Alike.tallies {i j : Instance} (h : i.Alike j) : i.Tallies j := by
  rw [h.rest]
  exact ⟨fun κ => by cases κ <;> rfl, rfl⟩

/-- No run has done anything: at most a deferral is cancelled, or a notification has come. -/
inductive RunsIdle (xs : List Run) : List Run → Prop
  | same : RunsIdle xs xs
  | cancelled (p : Nat) : RunsIdle xs (xs.modify p Run.cancelDeferral)
  | joined {x : Run} (hs : x.stage = .arriving) (ha : x.admitted = false) (hl : x.log = []) :
    RunsIdle xs (xs ++ [x])

theorem RunsIdle.countP {xs ys : List Run} (h : RunsIdle xs ys) (κ : Counter) (n : Nat) :
    (ys.countP fun x => x.rule == n && κ.counts x) = xs.countP fun x => x.rule == n && κ.counts x := by
  cases h with
  | same => rfl
  | cancelled p =>
    by_cases hp : p < xs.length
    · have hm := Core.countP_modify_add (fun x => x.rule == n && κ.counts x) hp Run.cancelDeferral default
      simpa using hm
    · rw [List.modify_eq_self (Nat.le_of_not_lt hp)]
  | joined hs ha hl =>
    rw [List.countP_append, List.countP_singleton, κ.counts_of_arriving hs ha, Bool.and_false]
    rfl

namespace Core

variable {C C' : Core}

/-- The number of runs for an instance of which something holds. -/
def tally (C : Core) (n : Nat) (p : Run → Bool) : Nat := C.runs.countP fun x => x.rule == n && p x

/-- A change that is of no account. -/
structure Idles (C C' : Core) : Prop where
  rule : ∀ n, (C.ruleAt n).Tallies (C'.ruleAt n)
  runs : RunsIdle C.runs C'.runs

theorem idles_cancelPending (C : Core) (p : Option (Nat × Nat)) : C.Idles (C.cancelPending p) := by
  cases p with
  | none => exact ⟨fun _ => .refl _, .same⟩
  | some p => exact ⟨fun _ => .refl _, .cancelled p.2⟩

theorem idles_modifyInstance (C : Core) (n : Nat) {f : Instance → Instance}
    (hf : ∀ i : Instance, i.Tallies (f i)) : C.Idles (C.modifyInstance n f) := by
  refine ⟨fun m => ?_, .same⟩
  unfold ruleAt modifyInstance
  rcases getD_modify_or C.instances n f default m with hm | ⟨-, hm⟩ <;> rw [hm]
  · exact .refl _
  · exact hf _

theorem idles_addInstance (C : Core) (d : Definition) (rs : List (String × Nat)) :
    C.Idles { C with instances := C.instances ++ [Instance.ofDefinition d], registered := rs } := by
  refine ⟨fun m => ?_, .same⟩
  unfold ruleAt
  rcases getD_concat_or C.instances (Instance.ofDefinition d) default m with hm | ⟨hm, hm'⟩
  · rw [hm]
    exact .refl _
  -- an instance that is new has counted as much as one that there is not
  · rw [hm, hm']
    exact ⟨fun κ => by cases κ <;> rfl, rfl⟩

theorem idles_retire {C₁ : Core} (h : C.Idles C₁) (hr : C₁.runs = C.runs) (n : Nat)
    (p : Option (Nat × Nat)) : C.Idles (C₁.retire n p) := by
  have hm := C₁.idles_modifyInstance n (f := .mapRule Rule.retire)
    fun i => ⟨fun κ => by cases κ <;> rfl, rfl⟩
  have hc := (C₁.modifyInstance n (.mapRule Rule.retire)).idles_cancelPending p
  refine ⟨fun m => ((h.rule m).trans (hm.rule m)).trans (hc.rule m), ?_⟩
  exact hr ▸ hc.runs

theorem idles_unguard (C : Core) (name : String) : C.Idles (C.unguard name) := by
  unfold unguard
  split
  · next n _ =>
    have hm := C.idles_modifyInstance n (f := fun i => { i with slot := i.slot.release.1 })
      fun i => ⟨fun _ => rfl, rfl⟩
    exact ⟨hm.rule, .same⟩
  · exact ⟨fun _ => .refl _, .same⟩

theorem idles_alike {is : List Instance} {t : Nat}
    (ha : List.Forall₂ Instance.Alike C.instances is) :
    C.Idles { C with now := t, instances := is } :=
  ⟨fun n => (alike_getD ha n).tallies, .same⟩

/-- What a step does to the counts, the marks and the runs. -/
inductive Books (C C' : Core) : Prop
  | idles (h : C.Idles C')
  /-- A run changes, and its instance with it; at most a deferral is cancelled besides. -/
  | turns {p : Option (Nat × Nat)} {r : Nat} {S : Scene} (hr : r < C.runs.length)
    (hp : (C.cancelPending p).scene r = C.scene r) (hn : S.number = r)
    (hrule : S.run.rule = (C.runAt r).rule) (hc : (C.scene r).Counted S) (hm : (C.scene r).Marks S)
    (hC : C' = (C.cancelPending p).put S)

theorem Change.books (h : C.Change C') (hu : C.Unheard) : C.Books C' := by
  have hfresh : ∀ r, (C.scene r).run.stage = .arriving → (C.scene r).run.admitted = false :=
    fun r hs => (hu r hs).1
  cases h with
  | rest => exact .idles ⟨fun _ => .refl _, .same⟩
  | turns hr ht =>
    exact .turns (p := none) hr rfl ht.follows.number ht.follows.rule (ht.counted (hfresh _))
      (ht.marks (hfresh _)) rfl
  | @defers r hr hd =>
    have ha := hfresh r hd.stage
    exact .turns hr (C.scene_cancelPending _ hd.stage) rfl rfl (Scene.counted_defer hd.stage ha _)
      (.admits rfl ha rfl rfl) rfl
  | spawns hn t a c => exact .idles ⟨fun _ => .refl _, .joined rfl rfl rfl⟩
  | abandons hr ha hs =>
    exact .turns (p := none) hr rfl rfl rfl (Scene.counted_abandon hs) (.keeps rfl rfl rfl) rfl
  | adds d => exact .idles (C.idles_addInstance d C.registered)
  | @defines d hd =>
    have he : C.Idles (C.enforce d) := C.idles_addInstance d _
    unfold define
    split
    · exact .idles (idles_retire he rfl _ _)
    · exact .idles he
  | @deregisters id n hn =>
    have hr : C.Idles { C with registered := C.registered.filter (·.1 != id) } :=
      ⟨fun _ => .refl _, .same⟩
    exact .idles (idles_retire hr rfl _ _)
  | tweaks ha => exact .idles (idles_alike ha)
  | @guards n slot hs name =>
    have hm := C.idles_modifyInstance n (f := fun i => { i with slot }) fun i => ⟨fun _ => rfl, rfl⟩
    have hu := (C.modifyInstance n fun i => { i with slot }).idles_unguard name
    refine .idles ⟨fun m => (hm.rule m).trans (hu.rule m), ?_⟩
    exact hu.runs
  | unguards name => exact .idles (C.idles_unguard name)
  | listens ls => exact .idles ⟨fun _ => .refl _, .same⟩

theorem Step.books (h : C.Step C') (hu : C.Unheard) : C.Books C' := by
  cases h with
  | change h => exact h.books hu
  | forgets => exact .idles ⟨fun _ => .refl _, .same⟩
  | pass ht ha => exact .idles (idles_alike ha)

/-! ### Counts -/

/-- Every count of a rule is the number of runs that it is of. -/
def Tallied (C : Core) : Prop :=
  ∀ (κ : Counter) (n : Nat), κ.value (C.ruleAt n).toRule = C.tally n κ.counts

theorem tally_put (C : Core) {S : Scene} (hr : S.number < C.runs.length) (n : Nat)
    (p : Run → Bool) :
    (C.put S).tally n p + ((C.runAt S.number).rule == n && p (C.runAt S.number)).toNat
      = C.tally n p + (S.run.rule == n && p S.run).toNat := by
  have hset := countP_set_add (fun x => x.rule == n && p x) hr S.run default
  have hone : ∀ b : Bool, b.toNat = if b then 1 else 0 := fun b => by cases b <;> rfl
  rw [hone, hone]
  exact hset

theorem Tallied.idles (h : C.Tallied) (hi : C.Idles C') : C'.Tallied := by
  intro κ n
  rw [(hi.rule n).value κ, h κ n]
  exact (hi.runs.countP κ n).symm

theorem Tallied.put (h : C.Tallied) (hv : C.Valid) {r : Nat} (hr : r < C.runs.length) {S : Scene}
    (hnum : S.number = r) (hrule : S.run.rule = (C.runAt r).rule) (hc : (C.scene r).Counted S) :
    (C.put S).Tallied := by
  subst hnum
  intro κ n
  have hcount := hc κ
  have hold := h κ n
  have htally := C.tally_put hr n κ.counts
  rw [C.ruleAt_put (hrule ▸ hv.run _ hr)]
  rw [← hrule] at htally
  -- the run counts for its own instance only
  by_cases hn : S.run.rule = n
  · subst hn
    have hrun : (C.scene S.number).run = C.runAt S.number := rfl
    have hinst : (C.scene S.number).rule = C.ruleAt S.run.rule := by rw [hrule]; rfl
    rw [hrun, hinst] at hcount
    rw [if_pos rfl]
    simp only [beq_self_eq_true, Bool.true_and] at htally
    omega
  · have hne : (S.run.rule == n) = false := by simpa using hn
    rw [if_neg hn, hold]
    simpa [hne] using htally.symm

theorem Tallied.step (h : C.Tallied) (hv : C.Valid) (hu : C.Unheard) (hs : C.Step C') :
    C'.Tallied := by
  cases hs.books hu with
  | idles hi => exact h.idles hi
  | @turns p r S hr hp hn hrule hc hm hC =>
    have hx : (C.cancelPending p).runAt r = C.runAt r := congrArg Scene.run hp
    have hcp := h.idles (C.idles_cancelPending p)
    rw [hC]
    exact hcp.put (hv.cancelPending p) (by simpa using hr) hn (hx ▸ hrule) (hp ▸ hc)

end Core

theorem Engine.Reachable.tallied {E : Engine} (hE : E.Reachable) : E.core.Tallied := by
  -- what is counted depends on who is admitted, so that goes along
  have hboth : E.core.Unheard ∧ E.core.Tallied := by
    refine hE.induction (P := fun C => C.Unheard ∧ C.Tallied) (fun E₀ hf => ?_) ?_
    · refine ⟨hf.reachable.unheard, fun κ n => ?_⟩
      obtain ⟨_, _, _, _, _, _, rfl⟩ := hf
      cases κ <;> rfl
    · rintro C C' hv ⟨hu, ht⟩ hs
      exact ⟨hu.step hs, ht.step hv hu hs⟩
  exact hboth.2

end ReactiveRules
