import ReactiveRules.Proofs.Engine.Wakes

/-!
# `Proofs/Engine/Staff.lean` — what operations do to workers

A worker is busy with a run until it hears of the outcome, so the workers that are busy and the runs
that are for workers and unanswered are the same (`Engine.Manned`). **Operations on runs, scripts
and rules leave the queue alone and free a worker only by answering its run** (`Engine.Minds`); they
take a turn from no worker and begin no run for one. What is left are the operations of the queue
and its workers themselves.
-/

set_option autoImplicit false

namespace ReactiveRules

namespace Engine

variable {E E' E'' : Engine}

/-- Whoever is busy is so with a run of its own that has not been answered, and the other way round.
-/
def Manned (E : Engine) : Prop := ∀ c w r, E.workerAt c w = .busy r ↔
  (E.runAt r).client = .worker c w ∧ (E.runAt r).answered = false

/-- The queue is left alone but for what it remembers of acceptances, and at most a worker has
become free. -/
structure Attends (E E' : Engine) : Prop where
  queue : ∃ accepted, accepted.Sublist E.queue.accepted ∧ E'.queue = { E.queue with accepted }
  settings : E'.settings = E.settings
  running : E'.running = E.running
  stops : E'.stops = E.stops
  crews : E'.crews.length = E.crews.length
  shutdown : ∀ c, (E'.crewAt c).shutdown = (E.crewAt c).shutdown
  size : ∀ c, (E'.crewAt c).workers.length = (E.crewAt c).workers.length
  ready : ∀ c w, Job.worker c w ∈ E.ready → Job.worker c w ∈ E'.ready
  client : ∀ r c w, (E'.runAt r).client = .worker c w ↔ (E.runAt r).client = .worker c w
  worker : ∀ c w, E'.workerAt c w = E.workerAt c w ∨ (∃ r, E.workerAt c w = .busy r) ∧
    E'.workerAt c w = .looking ∧ Job.worker c w ∈ E'.ready
  manned : E'.Manned

/-- What all operations do but those of the queue and its workers. -/
def Minds (E E' : Engine) : Prop := E.Manned → E.Attends E'

theorem Attends.refl (h : E.Manned) : E.Attends E :=
  ⟨⟨_, .refl _, rfl⟩, rfl, rfl, rfl, rfl, fun _ => rfl, fun _ => rfl, fun _ _ => id,
    fun _ _ _ => Iff.rfl, fun _ _ => .inl rfl, h⟩

theorem Attends.trans (h : E.Attends E') (h' : E'.Attends E'') : E.Attends E'' where
  queue := by
    obtain ⟨_, hs, hq⟩ := h.queue
    obtain ⟨a, hs', hq'⟩ := h'.queue
    rw [hq] at hs' hq'
    exact ⟨a, hs'.trans hs, hq'⟩
  settings := h'.settings.trans h.settings
  running := h'.running.trans h.running
  stops := h'.stops.trans h.stops
  crews := h'.crews.trans h.crews
  shutdown := fun c => (h'.shutdown c).trans (h.shutdown c)
  size := fun c => (h'.size c).trans (h.size c)
  ready := fun c w hm => h'.ready c w (h.ready c w hm)
  client := fun r c w => (h'.client r c w).trans (h.client r c w)
  worker := by
    intro c w
    rcases h'.worker c w with hs' | ⟨⟨r, hb'⟩, hl', hm'⟩
    · rcases h.worker c w with hs | ⟨hb, hl, hm⟩
      · exact .inl (hs'.trans hs)
      · exact .inr ⟨hb, hs'.trans hl, h'.ready c w hm⟩
    · rcases h.worker c w with hs | ⟨-, hl, -⟩
      · exact .inr ⟨⟨r, hs ▸ hb'⟩, hl', hm'⟩
      · rw [hl] at hb'
        cases hb'
  manned := h'.manned

theorem Minds.refl (E : Engine) : E.Minds E := Attends.refl

theorem Minds.trans (h : E.Minds E') (h' : E'.Minds E'') : E.Minds E'' :=
  fun hm => (h hm).trans (h' (h hm).manned)

/-! ## Single changes -/

/-- What leaves the workers alone, and of the runs for whom they are and whether they are answered.
-/
theorem minds_of_runs
    (hq : ∃ accepted, accepted.Sublist E.queue.accepted ∧ E'.queue = { E.queue with accepted })
    (hs : E'.settings = E.settings) (hr : E'.running = E.running) (ht : E'.stops = E.stops)
    (hl : E'.crews.length = E.crews.length)
    (hc : ∀ c, (E'.crewAt c).shutdown = (E.crewAt c).shutdown ∧
      (E'.crewAt c).workers = (E.crewAt c).workers)
    (hj : ∀ c w, Job.worker c w ∈ E.ready → Job.worker c w ∈ E'.ready)
    (hx : ∀ r c w, ((E'.runAt r).client = .worker c w ↔ (E.runAt r).client = .worker c w) ∧
      ((E.runAt r).client = .worker c w → (E'.runAt r).answered = (E.runAt r).answered)) :
    E.Minds E' := by
  have hw : ∀ c w, E'.workerAt c w = E.workerAt c w := fun c w => by
    rw [workerAt, workerAt, (hc c).2]
  intro hm
  refine ⟨hq, hs, hr, ht, hl, fun c => (hc c).1, fun c => congrArg _ (hc c).2, hj,
    fun r c w => (hx r c w).1, fun c w => .inl (hw c w), fun c w r => ?_⟩
  rw [hw, hm c w r, (hx r c w).1]
  exact and_congr_right fun h => by rw [(hx r c w).2 h]

/-- Neither the queue nor workers nor runs are touched, and no worker loses its turn. -/
structure Aside (E E' : Engine) : Prop where
  queue : E'.queue = E.queue
  settings : E'.settings = E.settings
  running : E'.running = E.running
  stops : E'.stops = E.stops
  crews : E'.crews = E.crews
  runs : E'.runs = E.runs
  ready : ∀ c w, Job.worker c w ∈ E.ready → Job.worker c w ∈ E'.ready

theorem Aside.refl (E : Engine) : E.Aside E := ⟨rfl, rfl, rfl, rfl, rfl, rfl, fun _ _ => id⟩

theorem Aside.trans (h : E.Aside E') (h' : E'.Aside E'') : E.Aside E'' :=
  ⟨h'.queue.trans h.queue, h'.settings.trans h.settings, h'.running.trans h.running,
    h'.stops.trans h.stops, h'.crews.trans h.crews, h'.runs.trans h.runs,
    fun c w hm => h'.ready c w (h.ready c w hm)⟩

theorem minds_aside (h : E.Aside E') : E.Minds E' := by
  refine minds_of_runs ⟨_, .refl _, h.queue⟩ h.settings h.running h.stops (congrArg _ h.crews)
    (fun c => ?_) h.ready fun r c w => ?_
  · unfold crewAt
    rw [h.crews]
    exact ⟨rfl, rfl⟩
  · unfold runAt
    rw [h.runs]
    exact ⟨Iff.rfl, fun _ => rfl⟩

theorem aside_foldl {α : Type} {f : Engine → α → Engine}
    (hf : ∀ (E : Engine) (a : α), E.Aside (f E a)) :
    ∀ (xs : List α) (E : Engine), E.Aside (xs.foldl f E) := by
  intro xs
  induction xs with
  | nil => intro E; exact .refl E
  | cons x rest ih => intro E; exact (hf E x).trans (ih _)

theorem minds_foldl {α : Type} {f : Engine → α → Engine}
    (hf : ∀ (E : Engine) (a : α), E.Minds (f E a)) :
    ∀ (xs : List α) (E : Engine), E.Minds (xs.foldl f E) := by
  intro xs
  induction xs with
  | nil => intro E; exact .refl E
  | cons x rest ih => intro E; exact (hf E x).trans (ih _)

/-- Making a job ready keeps all others so. -/
theorem mem_ready_wake {i : Job} (j : Job) (h : i ∈ E.ready) : i ∈ (E.wake j).ready := by
  unfold wake
  split
  · exact h
  · exact List.mem_append_left _ h

theorem mem_ready_goOn {i : Job} (j : Job) (h : i ∈ E.ready) : i ∈ (E.goOn j).ready := by
  by_cases hj : i = j
  · exact hj ▸ List.mem_cons_self
  · exact List.mem_cons_of_mem _ ((List.mem_erase_of_ne hj).mpr h)

theorem aside_wake (E : Engine) (j : Job) : E.Aside (E.wake j) := by
  have hj : ∀ c w, Job.worker c w ∈ E.ready → Job.worker c w ∈ (E.wake j).ready :=
    fun _ _ h => mem_ready_wake j h
  unfold wake at hj ⊢
  split
  · exact .refl E
  · next hn =>
    rw [if_neg hn] at hj
    exact ⟨rfl, rfl, rfl, rfl, rfl, rfl, hj⟩

theorem aside_goOn (E : Engine) (j : Job) : E.Aside (E.goOn j) :=
  ⟨rfl, rfl, rfl, rfl, rfl, rfl, fun _ _ h => mem_ready_goOn j h⟩

theorem aside_say (E : Engine) (e : Entry) : E.Aside (E.say e) :=
  ⟨rfl, rfl, rfl, rfl, rfl, rfl, fun _ _ => id⟩

theorem minds_wake (E : Engine) (j : Job) : E.Minds (E.wake j) := minds_aside (E.aside_wake j)

theorem minds_goOn (E : Engine) (j : Job) : E.Minds (E.goOn j) := minds_aside (E.aside_goOn j)

theorem minds_say (E : Engine) (e : Entry) : E.Minds (E.say e) := minds_aside (E.aside_say e)

theorem minds_notice (E : Engine) (n : Notice) : E.Minds (E.notice n) := E.minds_say _

theorem minds_setEvaluation (E : Engine) (e : Nat) (s : EvaluationState) :
    E.Minds (E.setEvaluation e s) := minds_aside ⟨rfl, rfl, rfl, rfl, rfl, rfl, fun _ _ => id⟩

theorem minds_finishTask (E : Engine) (n : Nat) (x : TaskResult) : E.Minds (E.finishTask n x) :=
  minds_aside ⟨rfl, rfl, rfl, rfl, rfl, rfl, fun _ _ => id⟩

theorem minds_modifyInstance (E : Engine) (n : Nat) (f : Instance → Instance) :
    E.Minds (E.modifyInstance n f) := minds_aside ⟨rfl, rfl, rfl, rfl, rfl, rfl, fun _ _ => id⟩

theorem minds_modifyRun (E : Engine) (m : Nat) {f : Run → Run}
    (hf : ∀ x, (f x).client = x.client ∧ (f x).answered = x.answered) :
    E.Minds (E.modifyRun m f) := by
  refine minds_of_runs ⟨_, .refl _, rfl⟩ rfl rfl rfl rfl (fun _ => ⟨rfl, rfl⟩) (fun _ _ => id)
    fun r c w => ?_
  rcases E.runAt_modifyRun m f r with hx | ⟨-, hx⟩ <;> rw [hx]
  · exact ⟨Iff.rfl, fun _ => rfl⟩
  · rw [(hf _).1, (hf _).2]
    exact ⟨Iff.rfl, fun _ => rfl⟩

theorem minds_mark (E : Engine) (r : Nat) (m : Milestone) : E.Minds (E.mark r m) :=
  E.minds_modifyRun r fun _ => ⟨rfl, rfl⟩

theorem minds_setStage (E : Engine) (r : Nat) (s : Stage) : E.Minds (E.setStage r s) :=
  E.minds_modifyRun r fun _ => ⟨rfl, rfl⟩

theorem minds_spawn (E : Engine) (n : Nat) (t : Trigger) (a : Admission) {client : Client}
    (hc : ∀ c w, client ≠ .worker c w) : E.Minds (E.spawn n t a client).1 := by
  refine minds_of_runs ⟨_, .refl _, rfl⟩ rfl rfl rfl rfl (fun _ => ⟨rfl, rfl⟩) (fun _ _ => id)
    fun r c w => ?_
  rcases Core.getD_concat_or E.runs { rule := n, trigger := t, admission := a, client } default r
    with hx | ⟨hx, hx'⟩
  · have hr : (E.spawn n t a client).1.runAt r = E.runAt r := hx
    rw [hr]
    exact ⟨Iff.rfl, fun _ => rfl⟩
  -- a run that begins is for somebody else
  · have hr : E.runAt r = default := hx
    have hr' : (E.spawn n t a client).1.runAt r
      = { rule := n, trigger := t, admission := a, client } := hx'
    rw [hr, hr']
    exact ⟨⟨fun h => absurd h (hc c w), nofun⟩, nofun⟩

/-! ## Workers -/

theorem crewAt_setWorker (E : Engine) (c w : Nat) (s : WorkerState) (c' : Nat) :
    ((E.setWorker c w s).crewAt c').shutdown = (E.crewAt c').shutdown ∧
      ((E.setWorker c w s).crewAt c').workers.length = (E.crewAt c').workers.length := by
  unfold crewAt setWorker
  rcases Core.getD_modify_or E.crews c (fun x => { x with workers := x.workers.set w s })
    { workers := [], tick := none } c' with hc | ⟨-, hc⟩ <;> rw [hc]
  · exact ⟨rfl, rfl⟩
  · exact ⟨rfl, List.length_set⟩

theorem lt_of_workers {c w : Nat} (h : w < (E.crewAt c).workers.length) : c < E.crews.length := by
  by_contra hc
  unfold crewAt at h
  rw [List.getD_eq_getElem?_getD, List.getElem?_eq_none (Nat.le_of_not_lt hc)] at h
  cases h

theorem workerAt_setWorker {c w : Nat} (h : w < (E.crewAt c).workers.length) (s : WorkerState)
    (c' w' : Nat) : (E.setWorker c w s).workerAt c' w'
      = if c = c' ∧ w = w' then s else E.workerAt c' w' := by
  have hc := lt_of_workers h
  unfold workerAt crewAt setWorker at *
  rw [Core.getD_modify _ _ hc]
  by_cases hcc : c = c'
  · subst hcc
    rw [if_pos rfl]
    by_cases hw : w = w'
    · subst hw
      simp only [and_self, if_true]
      exact (Core.getD_set s .stopped h w).trans (if_pos rfl)
    · simp [hw]
  · simp [hcc]

/-- Only a worker that there is can be at something. -/
theorem lt_of_workerAt {c w : Nat} (h : E.workerAt c w ≠ .stopped) :
    w < (E.crewAt c).workers.length := by
  by_contra hw
  apply h
  unfold workerAt
  rw [List.getD_eq_getElem?_getD, List.getElem?_eq_none (Nat.le_of_not_lt hw)]
  rfl

theorem lt_of_worker {r c w : Nat} (h : (E.runAt r).client = .worker c w) : r < E.runs.length := by
  by_contra hlt
  rw [runAt, List.getD_eq_getElem?_getD, List.getElem?_eq_none (Nat.le_of_not_lt hlt)] at h
  cases h

/-- A worker hears the outcome of its run, and looks into the queue next. -/
def freed (E : Engine) (r c w : Nat) : Engine :=
  ((E.answered r).setWorker c w .looking).goOn (.worker c w)

theorem minds_freed {r c w : Nat} (ha : (E.runAt r).answered = false)
    (hc : (E.runAt r).client = .worker c w) : E.Minds (E.freed r c w) := by
  intro hm
  have hbusy : E.workerAt c w = .busy r := (hm c w r).mpr ⟨hc, ha⟩
  have hw : w < (E.crewAt c).workers.length :=
    lt_of_workerAt (by rw [hbusy]; exact WorkerState.noConfusion)
  have hwork : ∀ c' w', (E.freed r c w).workerAt c' w'
      = if c = c' ∧ w = w' then .looking else E.workerAt c' w' :=
    workerAt_setWorker (E := E.answered r) hw .looking
  have hrun : ∀ m, (E.freed r c w).runAt m
      = if r = m then { E.runAt m with answered := true } else E.runAt m :=
    fun m => Core.getD_modify _ _ (lt_of_worker hc) m
  refine ⟨⟨_, .refl _, rfl⟩, rfl, rfl, rfl, List.length_modify _ _ _, fun c' => ?_, fun c' => ?_,
    fun c' w' h => mem_ready_goOn _ h, fun m c' w' => ?_, fun c' w' => ?_, fun c' w' m => ?_⟩
  · exact (crewAt_setWorker (E.answered r) c w .looking c').1
  · exact (crewAt_setWorker (E.answered r) c w .looking c').2
  · rw [hrun m]
    split <;> exact Iff.rfl
  · rw [hwork]
    split
    · next h =>
      obtain ⟨rfl, rfl⟩ := h
      exact .inr ⟨⟨r, hbusy⟩, rfl, List.mem_cons_self⟩
    · exact .inl rfl
  · rw [hwork, hrun]
    by_cases hmr : r = m
    -- the run is answered, and nobody else was busy with it
    · subst hmr
      rw [if_pos rfl]
      refine ⟨fun h => ?_, fun h => Bool.noConfusion h.2⟩
      split at h
      · cases h
      · next hcw =>
        have hc' := ((hm c' w' r).mp h).1
        exact absurd (hc.symm.trans hc') fun h => hcw (by simpa using h)
    -- a worker is busy with one run at a time
    · rw [if_neg hmr]
      split
      · next hcw =>
        obtain ⟨rfl, rfl⟩ := hcw
        refine ⟨fun h => WorkerState.noConfusion h, fun h => ?_⟩
        have hb := (hm c w m).mpr h
        rw [hbusy] at hb
        exact absurd (WorkerState.busy.inj hb) hmr
      · exact hm c' w' m

/-- A client that is no worker hears the outcome. -/
theorem minds_answered {r : Nat} (hne : ∀ c w, (E.runAt r).client ≠ .worker c w) :
    E.Minds (E.answered r) := by
  refine minds_of_runs ⟨_, .refl _, rfl⟩ rfl rfl rfl rfl (fun _ => ⟨rfl, rfl⟩) (fun _ _ => id)
    fun m c w => ?_
  rcases E.runAt_modifyRun r (fun x => { x with answered := true }) m with hx | ⟨rfl, hx⟩
  · rw [answered, hx]
    exact ⟨Iff.rfl, fun _ => rfl⟩
  · rw [answered, hx]
    exact ⟨Iff.rfl, fun h => absurd h (hne c w)⟩

theorem minds_reply (E : Engine) (e : Nat) (a : Script.Reply) : E.Minds (E.reply e a) := by
  unfold reply
  split
  · exact (E.minds_setEvaluation e _).trans (minds_goOn _ _)
  · exact .refl E

theorem minds_answer (E : Engine) (r : Nat) (o : Outcome) : E.Minds (E.answer r o) := by
  have hsame : ((E.answered r).runAt r).client = (E.runAt r).client := by
    rcases E.runAt_modifyRun r (fun x => { x with answered := true }) r with hx | ⟨-, hx⟩ <;>
      rw [answered, hx]
  -- a client is a worker or not
  have hother : ∀ {x : Client}, ((E.answered r).runAt r).client = x → (∀ c w, x ≠ .worker c w) →
      E.Minds (E.answered r) :=
    fun hx hne => minds_answered fun c w => hsame ▸ hx ▸ hne c w
  unfold answer
  split
  · exact .refl E
  · next ha =>
    dsimp only
    split
    · next hc => exact (hother hc fun _ _ => Client.noConfusion).trans (minds_finishTask _ _ _)
    · next hc => exact (hother hc fun _ _ => Client.noConfusion).trans (minds_goOn _ _)
    · next hc => exact minds_freed (by simpa using ha) (hsame.symm.trans hc)
    · next hc => exact (hother hc fun _ _ => Client.noConfusion).trans (minds_reply _ _ _)

/-! ## The course of a run -/

theorem minds_free (E : Engine) (r : Nat) : E.Minds (E.free r) := by
  unfold free
  split
  · dsimp only
    refine Minds.trans ?_ (minds_foldl (fun E _ => E.minds_wake _) _ _)
    exact (E.minds_modifyInstance _ _).trans (minds_modifyRun _ r fun _ => ⟨rfl, rfl⟩)
  · exact .refl E

theorem minds_finish (E : Engine) (r : Nat) (o : Outcome) : E.Minds (E.finish r o) :=
  ((E.minds_setStage r _).trans (minds_free _ r)).trans (minds_answer _ r o)

theorem minds_publish (E : Engine) (r : Nat) (s : RunSignal) : E.Minds (E.publish r s) := by
  unfold publish
  split
  · exact .refl E
  · exact minds_aside ⟨rfl, rfl, rfl, rfl, rfl, rfl, fun _ _ => id⟩

theorem minds_hear (E : Engine) (r : Nat) (s : RunSignal) (l : Listener) :
    E.Minds (E.hear r s l) := by
  have hm := E.minds_mark r (.heard l s)
  unfold hear
  dsimp only
  split
  · split
    · exact (hm.trans (minds_say _ _)).trans (minds_notice _ _)
    · exact hm.trans (minds_say _ _)
  · exact hm.trans (minds_publish _ _ _)

theorem minds_tell (E : Engine) (r : Nat) (s : RunSignal) : E.Minds (E.tell r s) :=
  minds_foldl (fun E l => E.minds_hear r s l) _ E

theorem minds_ask (r : Nat) : ∀ (ls : List Listener) (E : Engine), E.Minds (E.ask r ls).1 := by
  intro ls
  induction ls with
  | nil => intro E; exact .refl E
  | cons l rest ih =>
    intro E
    have hm := E.minds_mark r (.heard l .beforeEvaluate)
    unfold ask
    dsimp only
    split
    · split
      · exact hm.trans (minds_say _ _)
      · split
        · exact hm.trans (minds_say _ _)
        · exact (hm.trans (minds_say _ _)).trans (ih _)
    · exact hm.trans (ih _)

/-- Most runs end by leaving a record and answering. -/
theorem minds_close (E : Engine) (r : Nat) (condition executed : Bool) (error : Option RuleError)
    (o : Outcome) : E.Minds ((E.record r condition executed error).finish r o) := by
  have hr : E.Minds (E.record r condition executed error) :=
    (E.minds_mark r _).trans (minds_aside ⟨rfl, rfl, rfl, rfl, rfl, rfl, fun _ _ => id⟩)
  exact hr.trans (minds_finish _ r o)

theorem minds_showFacts (E : Engine) (r : Nat) : E.Minds (E.showFacts r) :=
  minds_foldl (fun E _ => E.minds_say _) _ E

theorem minds_evaluate {r : Nat} {p : Purpose} {text : String} {x : Except ScriptError Nat}
    (he : E.evaluate r p text = (E', x)) : E.Minds E' := by
  have hw : E.Minds (E.evaluate r p text).1 := by
    unfold evaluate
    dsimp only
    split <;> exact minds_aside ⟨rfl, rfl, rfl, rfl, rfl, rfl, fun _ _ => id⟩
  rwa [he] at hw

theorem minds_breakOff (E : Engine) (r : Nat) (m : String) : E.Minds (E.breakOff r m) := by
  unfold breakOff
  refine Minds.trans ?_ (minds_close _ r _ _ _ _)
  refine Minds.trans ?_ (minds_tell _ r _)
  exact (E.minds_notice _).trans (minds_modifyInstance _ _ _)

theorem minds_conclude (E : Engine) (r : Nat) (result : Except RuleError Json) :
    E.Minds (E.conclude r result) := by
  have hm : E.Minds (if (E.ruleOf r).definition.clearFacts
      then (E.mark r .concluded).modifyRuleOf r Rule.clearFacts else E.mark r .concluded) := by
    split
    · exact (E.minds_mark r _).trans (minds_modifyInstance _ _ _)
    · exact E.minds_mark r _
  unfold conclude
  cases result with
  | ok v =>
    refine Minds.trans ?_ (minds_close _ r _ _ _ _)
    refine Minds.trans ?_ (minds_tell _ r _)
    refine Minds.trans ?_ (minds_tell _ r _)
    refine Minds.trans ?_ (minds_notice _ _)
    exact hm.trans (minds_modifyInstance _ _ _)
  | error e =>
    refine Minds.trans ?_ (minds_close _ r _ _ _ _)
    refine Minds.trans ?_ (minds_tell _ r _)
    refine Minds.trans ?_ (minds_notice _ _)
    exact hm.trans (minds_modifyInstance _ _ _)

theorem minds_expire (E : Engine) (r e : Nat) : E.Minds (E.expire r e) := by
  unfold expire
  refine Minds.trans ?_ (minds_conclude _ r _)
  exact minds_aside ⟨rfl, rfl, rfl, rfl, rfl, rfl, fun _ _ => id⟩

theorem minds_forgo (E : Engine) (r : Nat) : E.Minds (E.forgo r) := by
  unfold forgo
  refine Minds.trans ?_ (minds_close _ r _ _ _ _)
  exact (E.minds_notice _).trans (minds_tell _ r _)

theorem minds_act (E : Engine) (r : Nat) : E.Minds (E.act r) := by
  have hm := (E.minds_mark r .attempted).trans (minds_showFacts _ r)
  unfold act
  dsimp only
  split
  · next E' e he => exact (hm.trans (minds_evaluate he)).trans (minds_conclude _ r _)
  · next E' e he =>
    have hE := hm.trans (minds_evaluate he)
    exact ((hE.trans (minds_setStage _ r _)).trans (minds_wake _ _)).trans (minds_goOn _ _)

theorem minds_proceed (E : Engine) (r : Nat) : E.Minds (E.proceed r) := by
  have ht := E.minds_tell r .beforeExecute
  unfold proceed
  dsimp only
  split
  · exact ((E.minds_notice _).trans (minds_tell _ r _)).trans (minds_close _ r _ _ _ _)
  · split
    · exact ht.trans (minds_act _ r)
    · exact (ht.trans (minds_setStage _ r _)).trans (minds_goOn _ _)

theorem minds_decideOn (E : Engine) (r : Nat) (result : Except ScriptError Bool) :
    E.Minds (E.decideOn r result) := by
  unfold decideOn
  rcases result with e | (_ | _)
  · refine Minds.trans ?_ (minds_close _ r _ _ _ _)
    exact ((E.minds_notice _).trans (minds_tell _ r _)).trans (minds_tell _ r _)
  · refine Minds.trans ?_ (minds_close _ r _ _ _ _)
    exact (E.minds_tell r _).trans (minds_tell _ r _)
  · exact (E.minds_tell r _).trans (minds_proceed _ r)

theorem minds_judge (E : Engine) (r : Nat) : E.Minds (E.judge r) := by
  have hm := ((E.minds_mark r .judged).trans (minds_showFacts _ r)).trans
    (minds_modifyInstance _ ((E.mark r .judged).showFacts r |>.runAt r).rule
      (.mapRule Rule.markEvaluated))
  unfold judge
  dsimp only
  split
  · next E' e he => exact (hm.trans (minds_evaluate he)).trans (minds_decideOn _ r _)
  · next E' e he =>
    exact ((hm.trans (minds_evaluate he)).trans (minds_setStage _ r _)).trans (minds_goOn _ _)

theorem minds_start (E : Engine) (r : Nat) : E.Minds (E.start r) := by
  have ht : E.Minds (E.modifyRun r fun x => { x with started := E.now, audience := E.listeners }) :=
    E.minds_modifyRun r fun _ => ⟨rfl, rfl⟩
  have ha := (ht.trans (minds_mark _ r .began)).trans (minds_ask r E.listeners _)
  unfold start
  dsimp only
  split
  · exact (E.minds_notice _).trans (minds_finish _ r _)
  · split
    · next E' m he => exact (he ▸ ha).trans (minds_breakOff _ r m)
    · next E' he => exact ((he ▸ ha).trans (minds_notice _ _)).trans (minds_finish _ r _)
    · next E' he => exact (he ▸ ha).trans (minds_judge _ r)

theorem minds_hold (E : Engine) (r : Nat) (slot : Slot Nat) : E.Minds (E.hold r slot) :=
  (E.minds_modifyInstance _ _).trans (minds_modifyRun _ r fun _ => ⟨rfl, rfl⟩)

theorem minds_claim (E : Engine) (r : Nat) : E.Minds (E.claim r) := by
  unfold claim
  dsimp only
  split
  · exact E.minds_finish r _
  · split
    · exact (E.minds_hold r _).trans (minds_start _ r)
    · split
      · exact (E.minds_notice _).trans (minds_finish _ r _)
      · exact (E.minds_modifyInstance _ _).trans (minds_setStage _ r _)

theorem minds_cancelDeferral (E : Engine) (r : Nat) : E.Minds (E.cancelDeferral r) := by
  unfold cancelDeferral
  split
  · exact (E.minds_setStage r _).trans (minds_wake _ _)
  · exact .refl E

theorem minds_defer (E : Engine) (r : Nat) : E.Minds (E.defer r) := by
  have hm : E.Minds (E.modifyRuleOf r (·.supersede r)) := E.minds_modifyInstance _ _
  unfold defer
  dsimp only
  refine Minds.trans (Minds.trans ?_ (minds_setStage _ r _)) (minds_answer _ r _)
  split
  · exact (hm.trans (minds_notice _ _)).trans (minds_cancelDeferral _ _)
  · exact hm

theorem minds_arrive (E : Engine) (r : Nat) : E.Minds (E.arrive r) := by
  have hm : E.Minds (E.modifyRuleOf r (·.recordFact E.now (E.runAt r).trigger.node
      (E.runAt r).trigger.name (E.runAt r).trigger.value)) := E.minds_modifyInstance _ _
  have ha := hm.trans (minds_modifyRun _ r (f := fun x => { x with admitted := true })
    fun _ => ⟨rfl, rfl⟩)
  unfold arrive
  dsimp only
  split
  · exact (E.minds_notice _).trans (minds_finish _ r _)
  · split
    · exact (E.minds_notice _).trans (minds_finish _ r _)
    · split
      · exact ha.trans (minds_claim _ r)
      · exact ha.trans (minds_defer _ r)

theorem minds_wakeDeferred (E : Engine) (r g due : Nat) (cancelled second : Bool) :
    E.Minds (E.wakeDeferred r g due cancelled second) := by
  unfold wakeDeferred
  split
  · exact (E.minds_modifyInstance _ _).trans (minds_claim _ r)
  · split
    · exact (E.minds_notice _).trans (minds_setStage _ r _)
    · exact .refl E

theorem minds_wakeWaiting (E : Engine) (r : Nat) (second : Bool) :
    E.Minds (E.wakeWaiting r second) := by
  unfold wakeWaiting
  dsimp only
  split
  · exact (E.minds_hold r _).trans (minds_start _ r)
  · split
    · exact ((E.minds_modifyInstance _ _).trans (minds_notice _ _)).trans (minds_finish _ r _)
    · split
      · exact E.minds_modifyInstance _ _
      · exact .refl E

theorem minds_wakeDelayed (E : Engine) (r due : Nat) (second : Bool) :
    E.Minds (E.wakeDelayed r due second) := by
  unfold wakeDelayed
  dsimp only
  split
  · exact E.minds_act r
  · split
    · exact E.minds_forgo r
    · exact .refl E

theorem minds_performRun (E : Engine) (r : Nat) (second : Bool) :
    E.Minds (E.performRun r second) := by
  unfold performRun
  split
  · exact .refl E
  · split
    · exact E.minds_arrive r
    · exact E.minds_wakeDeferred r _ _ _ second
    · exact E.minds_wakeWaiting r second
    · exact E.minds_wakeDelayed r _ second
    · split
      · exact E.minds_expire r _
      · exact .refl E
    · exact .refl E

/-! ## Rules -/

theorem minds_registry (E : Engine) (R : Registry) : E.Minds { E with registry := R } :=
  minds_aside ⟨rfl, rfl, rfl, rfl, rfl, rfl, fun _ _ => id⟩

theorem minds_signalRetirement (E : Engine) (n : Nat) (p : Option (Nat × Nat)) :
    E.Minds (E.signalRetirement n p) := by
  have hw := minds_foldl (fun E r => E.minds_wake (.run r)) (E.listening n) E
  unfold signalRetirement
  cases p with
  | none => exact hw
  | some p => exact hw.trans (minds_cancelDeferral _ _)

theorem minds_define (E : Engine) (d : Definition) : E.Minds (E.define d).1 := by
  unfold define
  split
  · exact .refl E
  · dsimp only
    split
    · exact ((E.minds_registry _).trans (minds_signalRetirement _ _ _)).trans (minds_notice _ _)
    · exact (E.minds_registry _).trans (minds_notice _ _)

theorem minds_deregister (E : Engine) (id : String) : E.Minds (E.deregister id).1 := by
  unfold deregister
  split
  · exact .refl E
  · exact ((E.minds_registry _).trans (minds_signalRetirement _ _ _)).trans (minds_notice _ _)

theorem minds_observe (E : Engine) (node id : String) : E.Minds (E.observe node id).1 := by
  unfold observe
  split
  · exact .refl E
  · exact (E.minds_registry _).trans (minds_notice _ _)

theorem minds_setPaused (E : Engine) (id : String) (paused : Bool) :
    E.Minds (E.setPaused id paused).1 := by
  unfold setPaused
  split
  · exact .refl E
  · exact (E.minds_modifyInstance _ _).trans (minds_notice _ _)

/-! ## Scripts -/

section Scripts

open Script (Process Reply Fault Value)

variable (E)

theorem minds_resumeScript (e : Nat) (p : Process (Except Fault Value)) :
    E.Minds (E.resumeScript e p) := (E.minds_setEvaluation e _).trans (minds_goOn _ _)

theorem minds_answerScript (e : Nat) (cancels : Bool) (a : Except String Json)
    (next : Reply → Process (Except Fault Value)) : E.Minds (E.answerScript e cancels a next) := by
  unfold answerScript
  refine Minds.trans ?_ (minds_resumeScript _ e _)
  exact minds_aside ⟨rfl, rfl, rfl, rfl, rfl, rfl, fun _ _ => id⟩

theorem minds_pass (e : Nat) (command : String) (next : Reply → Process (Except Fault Value)) :
    E.Minds (E.pass e command next) := (E.minds_say _).trans (minds_resumeScript _ e _)

theorem minds_reachGate (e : Nat) (command gate : String)
    (next : Reply → Process (Except Fault Value)) : E.Minds (E.reachGate e command gate next) := by
  unfold reachGate
  split
  · refine Minds.trans ?_ (minds_pass _ e command next)
    exact minds_aside ⟨rfl, rfl, rfl, rfl, rfl, rfl, fun _ _ => id⟩
  · exact E.minds_setEvaluation e _

theorem minds_openGate (gate : String) : E.Minds (E.openGate gate) := by
  unfold openGate
  split
  · exact minds_aside ⟨rfl, rfl, rfl, rfl, rfl, rfl, fun _ _ => id⟩
  · split
    · exact E.minds_pass _ _ _
    · exact .refl E

theorem minds_fire (e : Nat) (t : Trigger) (next : Reply → Process (Except Fault Value)) :
    E.Minds (E.fire e t next) := by
  unfold fire
  split
  · exact E.minds_resumeScript e _
  · have hs := E.minds_setEvaluation e (.awaiting next)
    exact (hs.trans (minds_spawn _ _ _ _ fun _ _ => Client.noConfusion)).trans (minds_goOn _ _)

theorem minds_concludeScript (e : Nat) (result : Except String (Except Fault Value)) :
    E.Minds (E.concludeScript e result) := by
  have he := E.minds_setEvaluation e .ended
  unfold concludeScript
  dsimp only
  split
  · split
    · cases result with
      | error m => exact he.trans (minds_breakOff _ _ m)
      | ok v => exact he.trans (minds_decideOn _ _ _)
    · exact he
  · split
    · cases result with
      | error m => exact he.trans (minds_conclude _ _ _)
      | ok v => exact he.trans (minds_conclude _ _ _)
    · exact he
  · exact he

end Scripts

/-! ## Housekeeping -/

theorem minds_sweep (E : Engine) : E.Minds E.sweep.1 := E.minds_registry _

theorem minds_keepHouse (E : Engine) : E.Minds E.keepHouse := by
  have hq : E.sweep.1.Minds { E.sweep.1 with queue := E.sweep.1.queue.cleanUp E.sweep.1.now } :=
    minds_of_runs ⟨_, List.filter_sublist, rfl⟩ rfl rfl rfl rfl (fun _ => ⟨rfl, rfl⟩)
      (fun _ _ => id) fun _ _ _ => ⟨Iff.rfl, fun _ => rfl⟩
  unfold keepHouse
  dsimp only
  split
  · exact (E.minds_sweep.trans hq).trans (minds_notice _ _)
  · exact E.minds_sweep.trans hq

/-- A change of a crew that lets its workers be. -/
theorem minds_modifyCrew (E : Engine) (c : Nat) {f : Crew → Crew}
    (hf : ∀ x, (f x).shutdown = x.shutdown ∧ (f x).workers = x.workers) :
    E.Minds { E with crews := E.crews.modify c f } := by
  refine minds_of_runs ⟨_, .refl _, rfl⟩ rfl rfl rfl (List.length_modify _ _ _) (fun c' => ?_)
    (fun _ _ => id) fun _ _ _ => ⟨Iff.rfl, fun _ => rfl⟩
  unfold crewAt
  rcases Core.getD_modify_or E.crews c f { workers := [], tick := none } c' with hx | ⟨-, hx⟩ <;>
    rw [hx]
  · exact ⟨rfl, rfl⟩
  · exact hf _

theorem minds_tickCrew (E : Engine) (c : Nat) : E.Minds (E.tickCrew c) := by
  unfold tickCrew
  split
  · exact E.minds_keepHouse.trans (minds_modifyCrew _ c fun _ => ⟨rfl, rfl⟩)
  · exact .refl E

theorem minds_strike (E : Engine) (t : Nat) : E.Minds (E.strike t) := by
  have ht : E.Minds { E with now := t } := minds_aside ⟨rfl, rfl, rfl, rfl, rfl, rfl, fun _ _ => id⟩
  unfold strike
  dsimp only
  exact (ht.trans (minds_foldl (fun E c => E.minds_tickCrew c) _ _)).trans
    (minds_foldl (fun E r => E.minds_wake _) _ _)

/-! ## From outside -/

theorem minds_abandonRunOf (E : Engine) (c : Client) : E.Minds (E.abandonRunOf c) := by
  unfold abandonRunOf
  split
  · exact .refl E
  · exact ((E.minds_modifyInstance _ _).trans (minds_setStage _ _ _)).trans (minds_free _ _)

theorem minds_unguard (E : Engine) (name : String) : E.Minds (E.unguard name).1 := by
  unfold unguard
  split
  · exact .refl E
  · dsimp only
    refine Minds.trans ?_ (minds_foldl (fun E _ => E.minds_wake _) _ _)
    exact minds_aside ⟨rfl, rfl, rfl, rfl, rfl, rfl, fun _ _ => id⟩

theorem minds_guard (E : Engine) (n : Nat) (name : String) : E.Minds (E.guard n name).1 := by
  unfold guard
  split
  · exact .refl E
  · next slot _ =>
    have hs := E.minds_modifyInstance n fun i => { i with slot }
    refine (hs.trans (minds_unguard _ name)).trans ?_
    exact minds_aside ⟨rfl, rfl, rfl, rfl, rfl, rfl, fun _ _ => id⟩

theorem minds_notify (E : Engine) (n : Nat) (t : Trigger) (a : Admission) :
    E.Minds (E.notify n t a).1 := by
  have ht : E.Minds E.startTask.1 := minds_aside ⟨rfl, rfl, rfl, rfl, rfl, rfl, fun _ _ => id⟩
  exact (ht.trans (minds_spawn _ n t a fun _ _ => Client.noConfusion)).trans (minds_wake _ _)

theorem minds_write (E : Engine) (a : Aspect) (node name : String) (value : Json) :
    E.Minds (E.write a node name value).1 := by
  unfold write
  dsimp only
  split
  · refine Minds.trans ?_ (minds_wake _ _)
    exact minds_aside ⟨rfl, rfl, rfl, rfl, rfl, rfl, fun _ _ => id⟩
  · refine Minds.trans ?_ (minds_wake _ _)
    exact minds_aside ⟨rfl, rfl, rfl, rfl, rfl, rfl, fun _ _ => id⟩

theorem minds_abandonWrite (E : Engine) (k : Nat) : E.Minds (E.abandonWrite k) := by
  refine Minds.trans ?_ (minds_abandonRunOf _ _)
  exact minds_aside ⟨rfl, rfl, rfl, rfl, rfl, rfl,
    fun _ _ h => (List.mem_erase_of_ne Job.noConfusion).mpr h⟩

theorem minds_performWrite (E : Engine) (k : Nat) : E.Minds (E.performWrite k) := by
  unfold performWrite
  split
  · exact .refl E
  · next x _ =>
    split
    · exact E.minds_finishTask _ _
    · next rule rest _ =>
      have hx : E.Minds { E with writes := E.writes.set k { x with remaining := rest } } :=
        minds_aside ⟨rfl, rfl, rfl, rfl, rfl, rfl, fun _ _ => id⟩
      dsimp only
      split
      · exact (hx.trans (minds_notice _ _)).trans (minds_goOn _ _)
      · exact (hx.trans (minds_spawn _ _ _ _ fun _ _ => Client.noConfusion)).trans
          (minds_goOn _ _)

end Engine

end ReactiveRules
