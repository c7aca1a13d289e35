import ReactiveRules.Engine.Requests

/-!
# `Proofs/Engine/Core.lean` — the part of an engine that runs act on

An engine carries a lot that no property of its runs depends on: who is ready, what scripts are at,
what the workers do. **`Engine.core` is the rest**: the time, the instances and which of them are in
force, the runs, the slots held from outside, the listeners, the history and the reports.

A turn of a run changes nothing of it but the run itself, the instance it is for, the history and
the reports. These four make its *scene*. `Engine.At E C S` says that `E` is the core `C` but for
what the scene `S` shows, and each definition of a run's course takes one scene to the next. So a
turn is followed scene by scene, and the core it ends with is written down once, by `Core.put`.
-/

set_option autoImplicit false

namespace ReactiveRules

/-- What a listener that reports was told, and of which run. -/
structure Report where
  listener : String
  full : Bool
  signal : RunSignal
  run : Nat
  deriving Inhabited

/-- The report in an entry of the journal. -/
def Entry.report? : Entry → Option Report
  | .heard listener full signal run => some ⟨listener, full, signal, run⟩
  | _ => none

/-- The part of an engine that runs act on. -/
structure Core where
  now : Nat
  instances : List Instance
  registered : List (String × Nat)
  runs : List Run
  guards : List (String × Nat)
  listeners : List Listener
  history : History
  reports : List Report

/-- What a turn of a run can change. -/
structure Scene where
  /-- The number of the run. -/
  number : Nat
  rule : Instance
  run : Run
  history : History
  reports : List Report

/-- The run with its deferred evaluation, if it has one, marked as one that will not take place. -/
def Run.cancelDeferral (x : Run) : Run :=
  match x.stage with
  | .deferred g due _ => { x with stage := .deferred g due true }
  | _ => x

@[simp] theorem Run.cancelDeferral_rule (x : Run) : x.cancelDeferral.rule = x.rule := by
  unfold Run.cancelDeferral
  split <;> rfl

namespace Core

def runAt (C : Core) (r : Nat) : Run := C.runs.getD r default

def ruleAt (C : Core) (n : Nat) : Instance := C.instances.getD n default

def scene (C : Core) (r : Nat) : Scene :=
  { number := r, rule := C.ruleAt (C.runAt r).rule, run := C.runAt r
    history := C.history, reports := C.reports }

/-- The deferred evaluation of a run will not take place. -/
def cancelDeferral (C : Core) (r : Nat) : Core :=
  { C with runs := C.runs.modify r Run.cancelDeferral }

/-- What has been put off will not take place. -/
def cancelPending (C : Core) : Option (Nat × Nat) → Core
  | some (_, r) => C.cancelDeferral r
  | none => C

/-- The core in which a scene is as given. -/
def put (C : Core) (S : Scene) : Core :=
  { C with
    runs := C.runs.set S.number S.run
    instances := C.instances.set S.run.rule S.rule
    history := S.history
    reports := S.reports }

@[simp] theorem put_now (C : Core) (S : Scene) : (C.put S).now = C.now := rfl
@[simp] theorem put_registered (C : Core) (S : Scene) :
    (C.put S).registered = C.registered := rfl
@[simp] theorem put_guards (C : Core) (S : Scene) : (C.put S).guards = C.guards := rfl
@[simp] theorem put_listeners (C : Core) (S : Scene) :
    (C.put S).listeners = C.listeners := rfl
@[simp] theorem put_history (C : Core) (S : Scene) : (C.put S).history = S.history := rfl
@[simp] theorem put_reports (C : Core) (S : Scene) : (C.put S).reports = S.reports := rfl

/-- A list that is set at a place to what it holds there anyway. -/
theorem set_getD_self {α : Type} (xs : List α) (n : Nat) (d : α) : xs.set n (xs.getD n d) = xs := by
  apply List.ext_getElem?
  intro m
  rw [List.getElem?_set]
  split
  · next h =>
    subst h
    split
    · next hn => rw [List.getD_eq_getElem?_getD, List.getElem?_eq_getElem hn]; rfl
    · next hn => rw [List.getElem?_eq_none (by omega)]
  · rfl

/-- Setting a place and changing it then is setting it. -/
theorem modify_set {α : Type} (xs : List α) (n : Nat) (a : α) (f : α → α) :
    (xs.set n a).modify n f = xs.set n (f a) := by
  apply List.ext_getElem?
  intro m
  by_cases hm : n = m
  · subst hm
    by_cases hn : n < xs.length <;> simp [hn]
  · simp [hm]

/-- Two changes that agree on what is at a place are the same there. -/
theorem modify_congr {α : Type} {xs : List α} {n : Nat} {f g : α → α}
    (h : ∀ x, xs[n]? = some x → f x = g x) : xs.modify n f = xs.modify n g := by
  apply List.ext_getElem?
  intro m
  by_cases hm : n = m
  · subst hm
    cases hx : xs[n]? with
    | none => simp [hx]
    | some x => simp [hx, h x hx]
  · simp [hm]

/-- A core already shows the scenes of its runs. -/
theorem put_scene (C : Core) (r : Nat) : C.put (C.scene r) = C := by
  simp only [put, scene, runAt, ruleAt, set_getD_self]

/-! ### Looking up after a change -/

theorem getD_set {α : Type} {xs : List α} {n : Nat} (a d : α) (hn : n < xs.length) (m : Nat) :
    (xs.set n a).getD m d = if n = m then a else xs.getD m d := by
  by_cases hm : n = m
  · subst hm
    simp [hn]
  · simp [List.getD_eq_getElem?_getD, List.getElem?_set_ne hm, hm]

theorem getD_modify {α : Type} {xs : List α} {n : Nat} (f : α → α) (d : α) (hn : n < xs.length)
    (m : Nat) : (xs.modify n f).getD m d = if n = m then f (xs.getD m d) else xs.getD m d := by
  by_cases hm : n = m
  · subst hm
    simp [hn]
  · simp [List.getD_eq_getElem?_getD, hm]

theorem getD_append {α : Type} {xs ys : List α} (d : α) {m : Nat} (hm : m < xs.length) :
    (xs ++ ys).getD m d = xs.getD m d := by
  simp [List.getD_eq_getElem?_getD, List.getElem?_append_left hm]

/-- Changing a place changes at most what is found there. -/
theorem getD_modify_or {α : Type} (xs : List α) (n : Nat) (f : α → α) (d : α) (m : Nat) :
    (xs.modify n f).getD m d = xs.getD m d ∨
      n = m ∧ (xs.modify n f).getD m d = f (xs.getD m d) := by
  by_cases hn : n < xs.length
  · have h := getD_modify f d hn m
    by_cases hm : n = m
    · exact .inr ⟨hm, h.trans (if_pos hm)⟩
    · exact .inl (h.trans (if_neg hm))
  · exact .inl (by rw [List.modify_eq_self (Nat.le_of_not_lt hn)])

theorem getD_concat {α : Type} (xs : List α) (a d : α) (m : Nat) :
    (xs ++ [a]).getD m d = if m = xs.length then a else xs.getD m d := by
  split
  · next hm => simp [hm]
  · next hm =>
    by_cases hlt : m < xs.length
    · exact getD_append d hlt
    · simp only [List.getD_eq_getElem?_getD]
      rw [List.getElem?_eq_none (by simp; omega), List.getElem?_eq_none (by omega)]

/-- What is added is found only where nothing was before. -/
theorem getD_concat_or {α : Type} (xs : List α) (a d : α) (m : Nat) :
    (xs ++ [a]).getD m d = xs.getD m d ∨ xs.getD m d = d ∧ (xs ++ [a]).getD m d = a := by
  rw [getD_concat]
  split
  · next hm => exact .inr ⟨by simp [hm], rfl⟩
  · exact .inl rfl

/-- A number that no run has stands for a run that has not come anywhere. -/
theorem runAt_of_le {C : Core} {r : Nat} (hr : C.runs.length ≤ r) : C.runAt r = default := by
  simp [runAt, List.getElem?_eq_none hr]

theorem runAt_put (C : Core) {S : Scene} (hr : S.number < C.runs.length) (r : Nat) :
    (C.put S).runAt r = if S.number = r then S.run else C.runAt r := getD_set _ _ hr r

theorem runAt_put_self (C : Core) {S : Scene} {r : Nat} (hn : S.number = r)
    (hr : r < C.runs.length) : (C.put S).runAt r = S.run := by
  rw [runAt_put C (hn ▸ hr), if_pos hn]

theorem runAt_put_ne (C : Core) {S : Scene} {r : Nat} (hn : S.number ≠ r) :
    (C.put S).runAt r = C.runAt r := by
  simp [put, runAt, hn]

theorem ruleAt_put (C : Core) {S : Scene} (hn : S.run.rule < C.instances.length) (n : Nat) :
    (C.put S).ruleAt n = if S.run.rule = n then S.rule else C.ruleAt n := getD_set _ _ hn n

theorem runAt_cancelDeferral (C : Core) (p r : Nat) :
    (C.cancelDeferral p).runAt r = if p = r then (C.runAt r).cancelDeferral else C.runAt r := by
  by_cases hp : p < C.runs.length
  · exact getD_modify _ _ hp r
  -- if no run has the number `p`, nothing is cancelled
  · have hm : C.runs.modify p Run.cancelDeferral = C.runs :=
      List.modify_eq_self (Nat.le_of_not_lt hp)
    by_cases hr : p = r
    · subst hr
      simp [cancelDeferral, runAt, hm, List.getElem?_eq_none (Nat.le_of_not_lt hp)]
      rfl
    · simp [cancelDeferral, runAt, hm, hr]

/-! ### Counting -/

/-- When one is set, what it was is counted no more, and what it is now is. -/
theorem countP_set_add {α : Type} (p : α → Bool) {xs : List α} {n : Nat} (hn : n < xs.length)
    (a d : α) :
    (xs.set n a).countP p + (if p (xs.getD n d) then 1 else 0)
      = xs.countP p + if p a then 1 else 0 := by
  have hx : xs.getD n d = xs[n] := by simp [hn]
  rw [List.countP_set hn, hx]
  by_cases hp : p xs[n]
  · have hpos : 0 < xs.countP p := List.countP_pos_iff.mpr ⟨_, List.getElem_mem hn, hp⟩
    simp only [hp, if_true]
    omega
  · simp [hp]

theorem countP_modify_add {α : Type} (p : α → Bool) {xs : List α} {n : Nat} (hn : n < xs.length)
    (f : α → α) (d : α) :
    (xs.modify n f).countP p + (if p (xs.getD n d) then 1 else 0)
      = xs.countP p + if p (f (xs.getD n d)) then 1 else 0 := by
  have hm : xs.modify n f = xs.set n (f (xs.getD n d)) := by rw [← modify_set, set_getD_self]
  rw [hm]
  exact countP_set_add p hn _ d

/-- A change that makes it true of nobody makes it true of no more. -/
theorem countP_modify_le {α : Type} {p : α → Bool} {f : α → α} (hf : ∀ x, p (f x) = true → p x = true)
    (xs : List α) (n : Nat) : (xs.modify n f).countP p ≤ xs.countP p := by
  by_cases hn : n < xs.length
  · have h := countP_modify_add p hn f xs[n]
    by_cases hp : p (f (xs.getD n xs[n])) = true
    · rw [if_pos hp, if_pos (hf _ hp)] at h
      omega
    · rw [if_neg hp] at h
      omega
  · exact Nat.le_of_eq (congrArg _ (List.modify_eq_self (Nat.le_of_not_lt hn)))

theorem countP_two {α : Type} {p : α → Bool} {xs : List α} {i j : Nat} (d : α) (hij : i < j)
    (hj : j < xs.length) (hi : p (xs.getD i d) = true) (hj' : p (xs.getD j d) = true) :
    2 ≤ xs.countP p := by
  induction xs generalizing i j with
  | nil => cases hj
  | cons x rest ih =>
    cases j with
    | zero => cases hij
    | succ j =>
      have hjr : j < rest.length := by simpa using hj
      have hjp : p (rest.getD j d) = true := by simpa using hj'
      cases i with
      | zero =>
        have hx : p x = true := by simpa using hi
        have hpos : 0 < rest.countP p := by
          apply List.countP_pos_iff.mpr
          refine ⟨rest[j], List.getElem_mem hjr, ?_⟩
          simpa [hjr] using hjp
        rw [List.countP_cons, if_pos hx]
        omega
      | succ i =>
        have hrest := ih (Nat.lt_of_succ_lt_succ hij) hjr (by simpa using hi) hjp
        rw [List.countP_cons]
        omega

end Core

namespace Engine

/-- The part that runs act on. -/
def core (E : Engine) : Core :=
  { now := E.now, instances := E.registry.instances, registered := E.registry.registered
    runs := E.runs, guards := E.guards, listeners := E.listeners, history := E.history
    reports := E.journal.filterMap fun x => x.2.report? }

@[simp] theorem core_now (E : Engine) : E.core.now = E.now := rfl
@[simp] theorem core_runs (E : Engine) : E.core.runs = E.runs := rfl
@[simp] theorem core_listeners (E : Engine) : E.core.listeners = E.listeners := rfl
@[simp] theorem core_runAt (E : Engine) (r : Nat) : E.core.runAt r = E.runAt r := rfl

/-! ## What leaves the core alone -/

theorem core_say (E : Engine) (e : Entry) :
    (E.say e).core = { E.core with reports := E.core.reports ++ e.report?.toList } := by
  simp only [core, say, List.filterMap_append, List.filterMap_cons, List.filterMap_nil]
  cases e.report? <;> rfl

theorem core_say_of_none (E : Engine) {e : Entry} (h : e.report? = none) :
    (E.say e).core = E.core := by
  rw [core_say, h, Option.toList_none, List.append_nil]

@[simp] theorem core_notice (E : Engine) (n : Notice) : (E.notice n).core = E.core :=
  core_say_of_none E rfl

@[simp] theorem core_setEvaluation (E : Engine) (e : Nat) (s : EvaluationState) :
    (E.setEvaluation e s).core = E.core := rfl

@[simp] theorem core_modifyEvaluation (E : Engine) (e : Nat) (f : Evaluation → Evaluation) :
    (E.modifyEvaluation e f).core = E.core := rfl

@[simp] theorem core_setWorker (E : Engine) (c w : Nat) (s : WorkerState) :
    (E.setWorker c w s).core = E.core := rfl

@[simp] theorem core_finishTask (E : Engine) (n : Nat) (x : TaskResult) :
    (E.finishTask n x).core = E.core := rfl

@[simp] theorem core_goOn (E : Engine) (j : Job) : (E.goOn j).core = E.core := rfl

@[simp] theorem core_wake (E : Engine) (j : Job) : (E.wake j).core = E.core := by
  unfold wake
  split <;> rfl

/-- One thing after another that each leave the core alone leave it alone together. -/
theorem core_foldl {α : Type} {f : Engine → α → Engine} (hf : ∀ E a, (f E a).core = E.core) :
    ∀ (xs : List α) (E : Engine), (xs.foldl f E).core = E.core := by
  intro xs
  induction xs with
  | nil => intro E; rfl
  | cons x rest ih => intro E; rw [List.foldl_cons, ih, hf]

@[simp] theorem core_wakeWorkers (E : Engine) : E.wakeWorkers.core = E.core :=
  core_foldl (fun E _ => core_wake E _) _ E

@[simp] theorem core_reply (E : Engine) (e : Nat) (a : Script.Reply) :
    (E.reply e a).core = E.core := by
  unfold reply
  split <;> rfl

@[simp] theorem core_publish (E : Engine) (r : Nat) (s : RunSignal) :
    (E.publish r s).core = E.core := by
  unfold publish
  split <;> rfl

@[simp] theorem core_showFacts (E : Engine) (r : Nat) : (E.showFacts r).core = E.core :=
  core_foldl (fun _ _ => core_say_of_none _ rfl) _ E

@[simp] theorem core_cancelDeferral (E : Engine) (r : Nat) :
    (E.cancelDeferral r).core = E.core.cancelDeferral r := by
  -- the stage that the engine looks at is the one that the change looks at
  have hstage : ∀ x, E.runs[r]? = some x → (E.runAt r).stage = x.stage := by
    intro x hx
    simp [runAt, hx]
  unfold cancelDeferral
  split
  · next g due c hs =>
    have hm : E.runs.modify r (fun x => { x with stage := .deferred g due true })
        = E.runs.modify r Run.cancelDeferral :=
      Core.modify_congr fun x hx => by simp [Run.cancelDeferral, ← hstage x hx, hs]
    rw [core_wake]
    simp only [setStage, modifyRun, core, Core.cancelDeferral, hm]
  · next hne =>
    -- a run whose evaluation is not put off is left as it is
    have hm : E.runs.modify r Run.cancelDeferral = E.runs := by
      have hid : E.runs.modify r Run.cancelDeferral = E.runs.modify r id :=
        Core.modify_congr fun x hx => by
          unfold Run.cancelDeferral
          split
          · next g due c hs => exact absurd ((hstage x hx).trans hs) (hne g due c)
          · rfl
      rw [hid, List.modify_id]
    simp only [core, Core.cancelDeferral, hm]

@[simp] theorem core_evaluate (E : Engine) (r : Nat) (p : Purpose) (text : String) :
    (E.evaluate r p text).1.core = E.core := by
  unfold evaluate
  dsimp only
  split <;> rfl

/-! ## In the middle of a turn -/

/-- An engine in the middle of a turn: the core of the beginning, but for the scene. -/
structure At (E : Engine) (C : Core) (S : Scene) : Prop where
  core : E.core = C.put S
  number_lt : S.number < C.runs.length
  rule_lt : S.run.rule < C.instances.length

namespace At

variable {E E' : Engine} {C : Core} {S : Scene}

/-- A turn begins with the scene as it is. -/
theorem scene {r : Nat} (hr : r < E.core.runs.length)
    (hn : (E.runAt r).rule < E.core.instances.length) : E.At E.core (E.core.scene r) :=
  ⟨(E.core.put_scene r).symm, hr, hn⟩

theorem runAt (h : E.At C S) : E.runAt S.number = S.run := by
  have hr : E.runs = C.runs.set S.number S.run := congrArg Core.runs h.core
  simp [Engine.runAt, hr, h.number_lt]

theorem ruleOf (h : E.At C S) : E.ruleOf S.number = S.rule := by
  have hi : E.registry.instances = C.instances.set S.run.rule S.rule :=
    congrArg Core.instances h.core
  simp [Engine.ruleOf, h.runAt, hi, h.rule_lt]

theorem now (h : E.At C S) : E.now = C.now := congrArg Core.now h.core

theorem listeners (h : E.At C S) : E.listeners = C.listeners := congrArg Core.listeners h.core

theorem history (h : E.At C S) : E.history = S.history := congrArg Core.history h.core

/-- Whatever leaves the core alone leaves the scene alone. -/
theorem quiet (h : E.At C S) (hc : E'.core = E.core) : E'.At C S :=
  ⟨hc.trans h.core, h.number_lt, h.rule_lt⟩

theorem modifyRun (h : E.At C S) (f : Run → Run) (hf : (f S.run).rule = S.run.rule) :
    (E.modifyRun S.number f).At C { S with run := f S.run } := by
  refine ⟨?_, h.number_lt, hf ▸ h.rule_lt⟩
  have hc : (E.modifyRun S.number f).core
      = { E.core with runs := E.core.runs.modify S.number f } := rfl
  rw [hc, h.core]
  simp only [Core.put, hf, Core.modify_set]

theorem modifyInstance (h : E.At C S) (f : Instance → Instance) :
    (E.modifyInstance S.run.rule f).At C { S with rule := f S.rule } := by
  refine ⟨?_, h.number_lt, h.rule_lt⟩
  have hc : (E.modifyInstance S.run.rule f).core
      = { E.core with instances := E.core.instances.modify S.run.rule f } := rfl
  rw [hc, h.core]
  simp only [Core.put, Core.modify_set]

end At

end Engine

end ReactiveRules
