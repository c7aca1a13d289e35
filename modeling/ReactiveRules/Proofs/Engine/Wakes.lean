import ReactiveRules.Proofs.Engine.Reach

/-!
# `Proofs/Engine/Wakes.lean` — what operations do to those who can take a turn

What is ready for a turn is not part of the core. So each operation is followed once more, this time
for what it takes from `ready`, whom it leaves listening, and which writes it lets go on. **No
operation takes a turn from a run, and each wakes all who come to be called or revoked**
(`Engine.Rouses`). Those that are none of a write's own begin no run for a write, and let one go on
only when they have answered it (`Engine.Spares`).
-/

set_option autoImplicit false

namespace ReactiveRules

namespace Engine

variable {E E' E₁ E'' : Engine}

/-- The instance of the run is retired, and the run has not noticed. -/
def Called (E : Engine) (r : Nat) : Prop :=
  (E.ruleOf r).retired = true ∧ (E.runAt r).stage.listens = true

theorem lt_of_listens {r : Nat} (hl : (E.runAt r).stage.listens = true) : r < E.runs.length := by
  apply lt_of_stage
  intro hs
  rw [hs] at hl
  cases hl

/-- The deferral of the run is cancelled, and the run has not noticed. -/
def Revoked (E : Engine) (r : Nat) : Prop := (E.runAt r).stage.isRevoked = true

theorem Revoked.stage {r : Nat} (h : E.Revoked r) :
    ∃ g due, (E.runAt r).stage = .deferred g due true := by
  unfold Revoked Stage.isRevoked at h
  split at h
  · next g due c hs =>
    rw [h] at hs
    exact ⟨g, due, hs⟩
  · cases h

/-- An operation takes no turn from a run, and wakes all who come to be called or revoked. -/
structure Rouses (E E' : Engine) : Prop where
  ready : ∀ r, Job.run r ∈ E.ready → Job.run r ∈ E'.ready
  called : ∀ r, E'.Called r → E.Called r ∨ Job.run r ∈ E'.ready
  revoked : ∀ r, E'.Revoked r → E.Revoked r ∨ Job.run r ∈ E'.ready

theorem Rouses.trans (h : E.Rouses E') (h' : E'.Rouses E'') : E.Rouses E'' := by
  refine ⟨fun r hr => h'.ready r (h.ready r hr), ?_, ?_⟩
  · intro r hr
    rcases h'.called r hr with hc | hw
    · exact (h.called r hc).imp id (h'.ready r)
    · exact .inr hw
  · intro r hr
    rcases h'.revoked r hr with hc | hw
    · exact (h.revoked r hc).imp id (h'.ready r)
    · exact .inr hw

/-- A run of a write that the write has not heard of. -/
def isOpen (k : Nat) (x : Run) : Bool := x.client == .write k && !x.answered

/-- What goes on on behalf of a write: the runs it has not heard of, and the turns it is to take. -/
def calls (E : Engine) (k : Nat) : Nat := E.runs.countP (isOpen k) + E.ready.count (.write k)

/-- An operation is none of a write's own: it begins no run for one, and lets one go on only when it has
answered it. -/
structure Spares (E E' : Engine) : Prop where
  writes : E'.writes = E.writes
  client : ∀ r k, (E'.runAt r).client = .write k → (E.runAt r).client = .write k
  calls : ∀ k, E'.calls k ≤ E.calls k

/-- What all operations do but those of a write. -/
structure Wakes (E E' : Engine) : Prop extends Rouses E E', Spares E E'

theorem Wakes.refl (E : Engine) : E.Wakes E :=
  ⟨⟨fun _ => id, fun _ => .inl, fun _ => .inl⟩, ⟨rfl, fun _ _ => id, fun _ => Nat.le_refl _⟩⟩

theorem Spares.trans (h : E.Spares E') (h' : E'.Spares E'') : E.Spares E'' :=
  ⟨h'.writes.trans h.writes, fun r k hr => h.client r k (h'.client r k hr),
    fun k => Nat.le_trans (h'.calls k) (h.calls k)⟩

theorem Wakes.trans (h : E.Wakes E') (h' : E'.Wakes E'') : E.Wakes E'' :=
  ⟨h.toRouses.trans h'.toRouses, h.toSpares.trans h'.toSpares⟩

/-! ## Single changes -/

theorem Called.congr {r : Nat} (h : E'.Called r) (hr : E'.runs = E.runs)
    (hi : E'.registry.instances = E.registry.instances) : E.Called r := by
  unfold Called ruleOf runAt at *
  rw [hr, hi] at h
  exact h

theorem Revoked.congr {r : Nat} (h : E'.Revoked r) (hr : E'.runs = E.runs) : E.Revoked r := by
  unfold Revoked runAt at *
  rw [hr] at h
  exact h

/-- What leaves runs and instances alone calls nobody. -/
theorem rouses_of_same (hr : E'.runs = E.runs)
    (hi : E'.registry.instances = E.registry.instances)
    (hw : ∀ r, Job.run r ∈ E.ready → Job.run r ∈ E'.ready) : E.Rouses E' :=
  ⟨hw, fun _ hc => .inl (hc.congr hr hi), fun _ hc => .inl (hc.congr hr)⟩

theorem spares_of_jobs (hr : E'.runs = E.runs) (hw : E'.writes = E.writes)
    (hj : ∀ k, E'.ready.count (.write k) ≤ E.ready.count (.write k)) : E.Spares E' := by
  refine ⟨hw, fun r k hk => ?_, fun k => ?_⟩
  · rw [runAt, ← hr]
    exact hk
  · unfold Engine.calls
    rw [hr]
    exact Nat.add_le_add_left (hj k) _

theorem wakes_of_same (hr : E'.runs = E.runs)
    (hi : E'.registry.instances = E.registry.instances) (hw : E'.writes = E.writes)
    (hj : E'.ready = E.ready) : E.Wakes E' :=
  ⟨rouses_of_same hr hi fun _ h => hj ▸ h, spares_of_jobs hr hw fun _ => hj ▸ Nat.le_refl _⟩

theorem wakes_foldl {α : Type} {f : Engine → α → Engine}
    (hf : ∀ (E : Engine) (a : α), E.Wakes (f E a)) :
    ∀ (xs : List α) (E : Engine), E.Wakes (xs.foldl f E) := by
  intro xs
  induction xs with
  | nil => intro E; exact .refl E
  | cons x rest ih => intro E; exact (hf E x).trans (ih _)

theorem mem_wake (j : Job) : j ∈ (E.wake j).ready := by
  unfold wake
  split
  · next h => exact List.contains_iff_mem.mp h
  · simp

theorem rouses_wake (E : Engine) (j : Job) : E.Rouses (E.wake j) := by
  have hc := core_wake E j
  refine rouses_of_same (congrArg Core.runs hc) (congrArg Core.instances hc) fun r hr => ?_
  unfold wake
  split
  · exact hr
  · exact List.mem_append_left _ hr

theorem rouses_goOn (E : Engine) (j : Job) : E.Rouses (E.goOn j) := by
  refine rouses_of_same rfl rfl fun r hr => ?_
  by_cases hj : Job.run r = j
  · exact hj ▸ List.mem_cons_self
  · exact List.mem_cons_of_mem _ ((List.mem_erase_of_ne hj).mpr hr)

/-- A job that is made ready has one more turn to take, and nobody else has. -/
theorem writes_wake (E : Engine) (j : Job) : (E.wake j).writes = E.writes := by
  unfold wake
  split <;> rfl

theorem count_wake (E : Engine) (j i : Job) :
    (E.wake j).ready.count i ≤ E.ready.count i + if j = i then 1 else 0 := by
  unfold wake
  split
  · exact Nat.le_add_right _ _
  · simp [List.count_append, List.count_singleton]

theorem count_goOn (E : Engine) (j i : Job) :
    (E.goOn j).ready.count i ≤ E.ready.count i + if j = i then 1 else 0 := by
  unfold goOn
  rw [List.count_cons]
  simp only [beq_iff_eq]
  exact Nat.add_le_add_right (List.Sublist.count_le _ List.erase_sublist) _

end Engine

def Job.isWrite : Job → Bool
  | .write _ => true
  | _ => false

theorem Job.ne_write {j : Job} (hj : j.isWrite = false) (k : Nat) : j ≠ .write k := by
  rintro rfl
  cases hj

def Client.isWrite : Client → Bool
  | .write _ => true
  | _ => false

theorem Client.ne_write {c : Client} (hc : c.isWrite = false) (k : Nat) : c ≠ .write k := by
  rintro rfl
  cases hc

/-- Does the request begin a write, or give one up? -/
def Request.isWrite : Request → Bool
  | .write .. | .abandonWrite _ => true
  | _ => false

namespace Engine

variable {E E' E₁ E'' : Engine}

theorem wakes_wake (E : Engine) {j : Job} (hj : j.isWrite = false) : E.Wakes (E.wake j) := by
  have hruns : (E.wake j).runs = E.runs := congrArg Core.runs (core_wake E j)
  refine ⟨rouses_wake E j, spares_of_jobs hruns (writes_wake E j) fun k => ?_⟩
  have h := count_wake E j (.write k)
  rwa [if_neg (Job.ne_write hj k)] at h

theorem wakes_goOn (E : Engine) {j : Job} (hj : j.isWrite = false) : E.Wakes (E.goOn j) := by
  refine ⟨rouses_goOn E j, spares_of_jobs rfl rfl fun k => ?_⟩
  have h := count_goOn E j (.write k)
  rwa [if_neg (Job.ne_write hj k)] at h

theorem wakes_say (E : Engine) (e : Entry) : E.Wakes (E.say e) :=
  wakes_of_same rfl rfl rfl rfl

theorem wakes_notice (E : Engine) (n : Notice) : E.Wakes (E.notice n) := E.wakes_say _

theorem wakes_setEvaluation (E : Engine) (e : Nat) (s : EvaluationState) :
    E.Wakes (E.setEvaluation e s) := wakes_of_same rfl rfl rfl rfl

theorem wakes_setWorker (E : Engine) (c w : Nat) (s : WorkerState) :
    E.Wakes (E.setWorker c w s) := wakes_of_same rfl rfl rfl rfl

theorem wakes_finishTask (E : Engine) (n : Nat) (x : TaskResult) :
    E.Wakes (E.finishTask n x) := wakes_of_same rfl rfl rfl rfl

theorem runAt_modifyRun (E : Engine) (m : Nat) (f : Run → Run) (r : Nat) :
    (E.modifyRun m f).runAt r = E.runAt r ∨
      m = r ∧ (E.modifyRun m f).runAt r = f (E.runAt r) := Core.getD_modify_or _ _ _ _ _

theorem ruleOf_modifyInstance (E : Engine) (n : Nat) (f : Instance → Instance) (r : Nat) :
    (E.modifyInstance n f).ruleOf r = E.ruleOf r ∨
      n = (E.runAt r).rule ∧ (E.modifyInstance n f).ruleOf r = f (E.ruleOf r) :=
  Core.getD_modify_or _ _ _ _ _

/-- What a change of a run has to leave alone so as to concern the run only. -/
structure Quiet (f : Run → Run) : Prop where
  rule : ∀ x, (f x).rule = x.rule
  client : ∀ x, (f x).client = x.client
  answered : ∀ x, (f x).answered = false → x.answered = false

theorem client_modifyRun {f : Run → Run} (hf : Quiet f) {m r k : Nat}
    (h : ((E.modifyRun m f).runAt r).client = .write k) : (E.runAt r).client = .write k := by
  rcases E.runAt_modifyRun m f r with hx | ⟨-, hx⟩
  · rwa [hx] at h
  · rwa [hx, hf.client] at h

theorem isOpen_quiet {f : Run → Run} (hf : Quiet f) (k : Nat) {x : Run} (h : isOpen k (f x) = true) :
    isOpen k x = true := by
  simp only [isOpen, hf.client, Bool.and_eq_true, Bool.not_eq_true'] at h ⊢
  exact ⟨h.1, hf.answered x h.2⟩

theorem calls_modifyRun {f : Run → Run} (hf : Quiet f) (E : Engine) (m k : Nat) :
    (E.modifyRun m f).calls k ≤ E.calls k :=
  Nat.add_le_add_right (Core.countP_modify_le (fun _ => isOpen_quiet hf k) _ _) _

/-- Changing a run in something else than where it stands calls nobody. -/
theorem wakes_modifyRun (E : Engine) (m : Nat) {f : Run → Run} (hf : Quiet f)
    (hs : ∀ x, (f x).stage = x.stage) : E.Wakes (E.modifyRun m f) := by
  have hrule : ∀ r, (E.modifyRun m f).ruleOf r
      = E.registry.instances.getD ((E.modifyRun m f).runAt r).rule default := fun _ => rfl
  refine ⟨⟨fun _ => id, fun r hr => .inl ?_, fun r hr => .inl ?_⟩,
    ⟨rfl, fun r k => client_modifyRun hf, calls_modifyRun hf E m⟩⟩
  · unfold Called at hr ⊢
    rw [hrule] at hr
    rcases E.runAt_modifyRun m f r with hx | ⟨-, hx⟩
    · rw [hx] at hr
      exact hr
    · rw [hx, hf.rule, hs] at hr
      exact hr
  · unfold Revoked at hr ⊢
    rcases E.runAt_modifyRun m f r with hx | ⟨-, hx⟩
    · rw [hx] at hr
      exact hr
    · rw [hx, hs] at hr
      exact hr

theorem wakes_touch (E : Engine) (m : Nat) {f : Run → Run} (hf : ∀ x, (f x).rule = x.rule ∧
    (f x).client = x.client ∧ (f x).answered = x.answered ∧ (f x).stage = x.stage) :
    E.Wakes (E.modifyRun m f) := by
  refine E.wakes_modifyRun m ⟨fun x => (hf x).1, fun x => (hf x).2.1, fun x h => ?_⟩
    fun x => (hf x).2.2.2
  exact (hf x).2.2.1.symm.trans h

/-- What changes instances only is none of a write's own. -/
theorem wakes_of_instances (h : E.Rouses E') (hr : E'.runs = E.runs) (hw : E'.writes = E.writes)
    (hj : E'.ready = E.ready) : E.Wakes E' := ⟨h, spares_of_jobs hr hw fun _ => hj ▸ Nat.le_refl _⟩

/-- Changing an instance calls nobody, unless it retires it. -/
theorem wakes_modifyInstance (E : Engine) (n : Nat) {f : Instance → Instance}
    (hf : ∀ i : Instance, (f i).retired = true → i.retired = true) :
    E.Wakes (E.modifyInstance n f) := by
  refine wakes_of_instances ⟨fun _ => id, fun r hr => .inl ⟨?_, hr.2⟩, fun _ => .inl⟩ rfl rfl rfl
  rcases E.ruleOf_modifyInstance n f r with hi | ⟨-, hi⟩
  · exact hi ▸ hr.1
  · exact hf _ (hi ▸ hr.1)

theorem wakes_modifySlot (E : Engine) (n : Nat) (f : Instance → Slot Nat) :
    E.Wakes (E.modifyInstance n fun i => { i with slot := f i }) :=
  E.wakes_modifyInstance n fun _ => id

theorem wakes_mark (E : Engine) (r : Nat) (m : Milestone) : E.Wakes (E.mark r m) :=
  E.wakes_touch r fun _ => ⟨rfl, rfl, rfl, rfl⟩

theorem wakes_modifyRuleOf (E : Engine) (r : Nat) {f : Rule → Rule}
    (hf : ∀ x : Rule, (f x).retired = x.retired) : E.Wakes (E.modifyRuleOf r f) :=
  E.wakes_modifyInstance _ fun i h => (hf i.toRule).symm.trans h

theorem quiet_stage (s : Stage) : Quiet fun x => { x with stage := s } :=
  ⟨fun _ => rfl, fun _ => rfl, fun _ => id⟩

theorem wakes_of_setStage {r : Nat} {s : Stage} (h : E.Rouses (E.setStage r s)) :
    E.Wakes (E.setStage r s) :=
  ⟨h, ⟨rfl, fun _ _ => client_modifyRun (quiet_stage s), calls_modifyRun (quiet_stage s) E r⟩⟩

theorem called_setStage {r m : Nat} {s : Stage} (h : (E.setStage r s).Called m) :
    E.Called m ∨ m = r ∧ (E.ruleOf r).retired = true ∧ s.listens = true := by
  have hrule : (E.setStage r s).ruleOf m
      = E.registry.instances.getD ((E.setStage r s).runAt m).rule default := rfl
  unfold Called at h
  rw [hrule] at h
  rcases E.runAt_modifyRun r (fun x => { x with stage := s }) m with hx | ⟨rfl, hx⟩
  · rw [setStage, hx] at h
    exact .inl h
  · rw [setStage, hx] at h
    exact .inr ⟨rfl, h⟩

theorem revoked_setStage {r m : Nat} {s : Stage} (h : (E.setStage r s).Revoked m) :
    E.Revoked m ∨ m = r ∧ s.isRevoked = true := by
  unfold Revoked at h
  rcases E.runAt_modifyRun r (fun x => { x with stage := s }) m with hx | ⟨rfl, hx⟩
  · rw [setStage, hx] at h
    exact .inl h
  · rw [setStage, hx] at h
    exact .inr ⟨rfl, h⟩

/-- A run may begin to listen while its instance is not retired. -/
theorem wakes_setStage_of_not_retired {r : Nat} (hr : (E.ruleOf r).retired = false) {s : Stage}
    (hs : s.isRevoked = false) : E.Wakes (E.setStage r s) := by
  refine wakes_of_setStage ⟨fun _ => id, fun m hm => ?_, fun m hm => ?_⟩
  · rcases called_setStage hm with hc | ⟨-, hret, -⟩
    · exact .inl hc
    · exact absurd (hret.symm.trans hr) Bool.noConfusion
  · rcases revoked_setStage hm with hc | ⟨-, hrev⟩
    · exact .inl hc
    · exact absurd (hrev.symm.trans hs) Bool.noConfusion

theorem wakes_setStage (E : Engine) (r : Nat) {s : Stage}
    (hs : (s.listens || s.isRevoked) = false) : E.Wakes (E.setStage r s) := by
  rw [Bool.or_eq_false_iff] at hs
  refine wakes_of_setStage ⟨fun _ => id, fun m hm => ?_, fun m hm => ?_⟩
  · rcases called_setStage hm with hc | ⟨-, -, hl⟩
    · exact .inl hc
    · exact absurd (hl.symm.trans hs.1) Bool.noConfusion
  · rcases revoked_setStage hm with hc | ⟨-, hrev⟩
    · exact .inl hc
    · exact absurd (hrev.symm.trans hs.2) Bool.noConfusion

/-- A run may come to stand anywhere if it is made ready at once. -/
theorem wakes_setStage_of_ready {E₁ : Engine} {r : Nat} {s : Stage} (hw : (E.setStage r s).Wakes E₁)
    (hr : Job.run r ∈ E₁.ready) : E.Wakes E₁ := by
  refine ⟨⟨fun m hm => hw.ready m hm, fun m hm => ?_, fun m hm => ?_⟩, ⟨hw.writes, fun m k hm => ?_,
    fun k => Nat.le_trans (hw.calls k) (calls_modifyRun (quiet_stage s) E r k)⟩⟩
  · rcases hw.called m hm with hc | hm'
    · rcases called_setStage hc with hc | ⟨rfl, -⟩
      · exact .inl hc
      · exact .inr hr
    · exact .inr hm'
  · rcases hw.revoked m hm with hc | hm'
    · rcases revoked_setStage hc with hc | ⟨rfl, -⟩
      · exact .inl hc
      · exact .inr hr
    · exact .inr hm'
  · exact client_modifyRun (quiet_stage s) (hw.client m k hm)

theorem wakes_putOff (E : Engine) (r : Nat) (s : Stage) :
    E.Wakes ((E.setStage r s).goOn (.run r)) :=
  wakes_setStage_of_ready (wakes_goOn _ rfl) List.mem_cons_self

/-! ## The course of a run -/

theorem wakes_free (E : Engine) (r : Nat) : E.Wakes (E.free r) := by
  unfold free
  split
  · dsimp only
    refine Wakes.trans ?_ (wakes_foldl (fun E _ => E.wakes_wake rfl) _ _)
    refine Wakes.trans ?_ (wakes_touch _ r fun _ => ⟨rfl, rfl, rfl, rfl⟩)
    exact E.wakes_modifySlot _ _
  · exact .refl E

theorem wakes_reply (E : Engine) (e : Nat) (a : Script.Reply) : E.Wakes (E.reply e a) := by
  unfold reply
  split
  · exact (E.wakes_setEvaluation e _).trans (wakes_goOn _ rfl)
  · exact .refl E

/-- The run has told its client. -/
def answered (E : Engine) (r : Nat) : Engine := E.modifyRun r fun x => { x with answered := true }

theorem wakes_answered (E : Engine) (r : Nat) : E.Wakes (E.answered r) :=
  E.wakes_modifyRun r ⟨fun _ => rfl, fun _ => rfl, fun _ => Bool.noConfusion⟩ fun _ => rfl

/-- A write that has heard of a run waits for it no more, so it can take a turn instead. -/
theorem wakes_answered_write {r n : Nat} (ha : (E.runAt r).answered = false)
    (hc : (E.runAt r).client = .write n) : E.Wakes ((E.answered r).goOn (.write n)) := by
  have hm := E.wakes_answered r
  refine ⟨hm.toRouses.trans (rouses_goOn _ _), ⟨rfl, hm.client, fun k => ?_⟩⟩
  have hcount := count_goOn (E.answered r) (.write n) (.write k)
  by_cases hn : n = k
  · subst hn
    rw [if_pos rfl] at hcount
    have hr : r < E.runs.length := by
      by_contra hlt
      rw [runAt, List.getD_eq_getElem?_getD, List.getElem?_eq_none (Nat.le_of_not_lt hlt)] at hc
      cases hc
    have hopen : isOpen n (E.runAt r) = true := by simp [isOpen, ha, hc]
    have hless : (E.answered r).runs.countP (isOpen n) + 1 = E.runs.countP (isOpen n) := by
      have h := Core.countP_modify_add (isOpen n) hr (fun x => { x with answered := true }) default
      rw [← runAt, if_pos hopen, if_neg (by simp [isOpen])] at h
      exact h
    have hready : (E.answered r).ready = E.ready := rfl
    rw [hready] at hcount
    show (E.answered r).runs.countP (isOpen n) + _ ≤ E.runs.countP (isOpen n) + E.ready.count _
    omega
  · rw [if_neg fun h => hn (Job.write.inj h)] at hcount
    exact Nat.le_trans (Nat.add_le_add_left hcount _) (hm.calls k)

theorem wakes_answer (E : Engine) (r : Nat) (o : Outcome) : E.Wakes (E.answer r o) := by
  have hm := E.wakes_answered r
  unfold answer
  split
  · exact .refl E
  · next ha =>
    have ha : (E.runAt r).answered = false := by simpa using ha
    have hsame : ((E.answered r).runAt r).client = (E.runAt r).client := by
      rcases E.runAt_modifyRun r (fun x => { x with answered := true }) r with hx | ⟨-, hx⟩ <;>
        rw [answered, hx]
    dsimp only
    split
    · exact hm.trans (wakes_finishTask _ _ _)
    · next n hc => exact wakes_answered_write ha (hsame.symm.trans hc)
    · exact (hm.trans (wakes_setWorker _ _ _ _)).trans (wakes_goOn _ rfl)
    · exact hm.trans (wakes_reply _ _ _)

theorem wakes_finish (E : Engine) (r : Nat) (o : Outcome) : E.Wakes (E.finish r o) :=
  ((E.wakes_setStage r rfl).trans (wakes_free _ r)).trans (wakes_answer _ r o)

theorem wakes_publish (E : Engine) (r : Nat) (s : RunSignal) : E.Wakes (E.publish r s) := by
  unfold publish
  split
  · exact .refl E
  · exact wakes_of_same rfl rfl rfl rfl

theorem wakes_hear (E : Engine) (r : Nat) (s : RunSignal) (l : Listener) :
    E.Wakes (E.hear r s l) := by
  have hm := E.wakes_mark r (.heard l s)
  unfold hear
  dsimp only
  split
  · split
    · exact (hm.trans (wakes_say _ _)).trans (wakes_notice _ _)
    · exact hm.trans (wakes_say _ _)
  · exact hm.trans (wakes_publish _ _ _)

theorem wakes_tell (E : Engine) (r : Nat) (s : RunSignal) : E.Wakes (E.tell r s) :=
  wakes_foldl (fun E l => E.wakes_hear r s l) _ E

theorem wakes_ask (r : Nat) : ∀ (ls : List Listener) (E : Engine), E.Wakes (E.ask r ls).1 := by
  intro ls
  induction ls with
  | nil => intro E; exact .refl E
  | cons l rest ih =>
    intro E
    have hm := E.wakes_mark r (.heard l .beforeEvaluate)
    unfold ask
    dsimp only
    split
    · split
      · exact hm.trans (wakes_say _ _)
      · split
        · exact hm.trans (wakes_say _ _)
        · exact (hm.trans (wakes_say _ _)).trans (ih _)
    · exact hm.trans (ih _)

theorem wakes_record (E : Engine) (r : Nat) (condition executed : Bool) (error : Option RuleError) :
    E.Wakes (E.record r condition executed error) :=
  (E.wakes_mark r _).trans (wakes_of_same rfl rfl rfl rfl)

/-- Most runs end by leaving a record and answering. -/
theorem wakes_close (E : Engine) (r : Nat) (condition executed : Bool) (error : Option RuleError)
    (o : Outcome) : E.Wakes ((E.record r condition executed error).finish r o) :=
  (E.wakes_record r condition executed error).trans (wakes_finish _ r o)

theorem wakes_showFacts (E : Engine) (r : Nat) : E.Wakes (E.showFacts r) :=
  wakes_foldl (fun E _ => E.wakes_say _) _ E

theorem wakes_evaluate {r : Nat} {p : Purpose} {text : String} {x : Except ScriptError Nat}
    (he : E.evaluate r p text = (E', x)) : E.Wakes E' := by
  have hw : E.Wakes (E.evaluate r p text).1 := by
    unfold evaluate
    dsimp only
    split <;> exact wakes_of_same rfl rfl rfl rfl
  rwa [he] at hw

theorem wakes_breakOff (E : Engine) (r : Nat) (m : String) : E.Wakes (E.breakOff r m) := by
  unfold breakOff
  refine Wakes.trans ?_ (wakes_close _ r _ _ _ _)
  refine Wakes.trans ?_ (wakes_tell _ r _)
  refine Wakes.trans ?_ (wakes_modifyRuleOf _ r fun _ => rfl)
  exact E.wakes_notice _

theorem wakes_conclude (E : Engine) (r : Nat) (result : Except RuleError Json) :
    E.Wakes (E.conclude r result) := by
  have hm : E.Wakes (if (E.ruleOf r).definition.clearFacts
      then (E.mark r .concluded).modifyRuleOf r Rule.clearFacts else E.mark r .concluded) := by
    split
    · exact (E.wakes_mark r _).trans (wakes_modifyRuleOf _ r fun _ => rfl)
    · exact E.wakes_mark r _
  have hc : ∀ now success (x : Rule), (x.markCompleted now success).retired = x.retired := by
    intro now success x
    unfold Rule.markCompleted
    split <;> rfl
  unfold conclude
  cases result with
  | ok v =>
    refine Wakes.trans ?_ (wakes_close _ r _ _ _ _)
    refine Wakes.trans ?_ (wakes_tell _ r _)
    refine Wakes.trans ?_ (wakes_tell _ r _)
    refine Wakes.trans ?_ (wakes_notice _ _)
    exact hm.trans (wakes_modifyRuleOf _ r (hc _ _))
  | error e =>
    refine Wakes.trans ?_ (wakes_close _ r _ _ _ _)
    refine Wakes.trans ?_ (wakes_tell _ r _)
    refine Wakes.trans ?_ (wakes_notice _ _)
    exact hm.trans (wakes_modifyRuleOf _ r (hc _ _))

theorem wakes_expire (E : Engine) (r e : Nat) : E.Wakes (E.expire r e) := by
  unfold expire
  refine Wakes.trans ?_ (wakes_conclude _ r _)
  exact wakes_of_same rfl rfl rfl rfl

theorem wakes_forgo (E : Engine) (r : Nat) : E.Wakes (E.forgo r) := by
  unfold forgo
  refine Wakes.trans ?_ (wakes_close _ r _ _ _ _)
  refine Wakes.trans ?_ (wakes_tell _ r _)
  exact E.wakes_notice _

theorem wakes_act (E : Engine) (r : Nat) : E.Wakes (E.act r) := by
  have hm := (E.wakes_mark r .attempted).trans (wakes_showFacts _ r)
  unfold act
  dsimp only
  split
  · next E' e he =>
    have hE := hm.trans (wakes_evaluate he)
    exact hE.trans (wakes_conclude _ r _)
  · next E' e he =>
    have hE := hm.trans (wakes_evaluate he)
    refine Wakes.trans ?_ (wakes_goOn _ rfl)
    refine Wakes.trans ?_ (wakes_wake _ rfl)
    exact hE.trans (wakes_setStage _ r rfl)

theorem wakes_proceed (E : Engine) (r : Nat) : E.Wakes (E.proceed r) := by
  have ht := E.wakes_tell r .beforeExecute
  unfold proceed
  dsimp only
  split
  · refine Wakes.trans ?_ (wakes_close _ r _ _ _ _)
    refine Wakes.trans ?_ (wakes_tell _ r _)
    exact E.wakes_notice _
  · split
    · exact ht.trans (wakes_act _ r)
    · exact ht.trans (wakes_putOff _ r _)

theorem wakes_decideOn (E : Engine) (r : Nat) (result : Except ScriptError Bool) :
    E.Wakes (E.decideOn r result) := by
  unfold decideOn
  rcases result with e | (_ | _)
  · refine Wakes.trans ?_ (wakes_close _ r _ _ _ _)
    refine Wakes.trans ?_ (wakes_tell _ r _)
    refine Wakes.trans ?_ (wakes_tell _ r _)
    exact E.wakes_notice _
  · refine Wakes.trans ?_ (wakes_close _ r _ _ _ _)
    refine Wakes.trans ?_ (wakes_tell _ r _)
    exact E.wakes_tell r _
  · exact (E.wakes_tell r _).trans (wakes_proceed _ r)

theorem wakes_judge (E : Engine) (r : Nat) : E.Wakes (E.judge r) := by
  have hm := ((E.wakes_mark r .judged).trans (wakes_showFacts _ r)).trans
    (wakes_modifyRuleOf _ r (f := Rule.markEvaluated) fun _ => rfl)
  unfold judge
  dsimp only
  split
  · next E' e he =>
    have hE := hm.trans (wakes_evaluate he)
    exact hE.trans (wakes_decideOn _ r _)
  · next E' e he =>
    have hE := hm.trans (wakes_evaluate he)
    exact (hE.trans (wakes_setStage _ r rfl)).trans (wakes_goOn _ rfl)

theorem wakes_start (E : Engine) (r : Nat) : E.Wakes (E.start r) := by
  have ht : E.Wakes (E.modifyRun r fun x => { x with started := E.now, audience := E.listeners }) :=
    E.wakes_touch r fun _ => ⟨rfl, rfl, rfl, rfl⟩
  have hb := ht.trans (wakes_mark _ r .began)
  unfold start
  dsimp only
  split
  · exact (E.wakes_notice _).trans (wakes_finish _ r _)
  · have ha := hb.trans (wakes_ask r E.listeners _)
    split
    · next E' m he =>
      exact (he ▸ ha).trans (wakes_breakOff _ r m)
    · next E' he =>
      exact ((he ▸ ha).trans (wakes_notice _ _)).trans (wakes_finish _ r _)
    · next E' he =>
      exact (he ▸ ha).trans (wakes_judge _ r)

theorem wakes_hold (E : Engine) (r : Nat) (slot : Slot Nat) : E.Wakes (E.hold r slot) := by
  unfold hold
  refine Wakes.trans ?_ (wakes_touch _ r fun _ => ⟨rfl, rfl, rfl, rfl⟩)
  exact E.wakes_modifySlot _ _

theorem wakes_claim (E : Engine) (r : Nat) : E.Wakes (E.claim r) := by
  unfold claim
  dsimp only
  split
  · exact E.wakes_finish r _
  · next hr =>
    split
    · exact (E.wakes_hold r _).trans (wakes_start _ r)
    · split
      · exact (E.wakes_notice _).trans (wakes_finish _ r _)
      · refine (E.wakes_modifySlot _ _).trans (wakes_setStage_of_not_retired ?_ rfl)
        rcases E.ruleOf_modifyInstance (E.runAt r).rule
          (fun i => { i with slot := i.slot.enlist r }) r with hi | ⟨-, hi⟩
        · rw [hi]
          simpa using hr
        · rw [hi]
          simpa using hr

theorem wakes_cancelDeferral (E : Engine) (r : Nat) : E.Wakes (E.cancelDeferral r) := by
  unfold cancelDeferral
  split
  · exact wakes_setStage_of_ready (wakes_wake _ rfl) (mem_wake _)
  · exact .refl E

theorem wakes_defer (E : Engine) (r : Nat) : E.Wakes (E.defer r) := by
  have hm := E.wakes_modifyRuleOf r (f := (·.supersede r)) fun _ => rfl
  unfold defer
  dsimp only
  refine Wakes.trans ?_ (wakes_answer _ r _)
  refine Wakes.trans ?_ (wakes_setStage _ r rfl)
  split
  · exact (hm.trans (wakes_notice _ _)).trans (wakes_cancelDeferral _ _)
  · exact hm

theorem wakes_arrive (E : Engine) (r : Nat) : E.Wakes (E.arrive r) := by
  unfold arrive
  dsimp only
  split
  · exact (E.wakes_notice _).trans (wakes_finish _ r _)
  · split
    · exact (E.wakes_notice _).trans (wakes_finish _ r _)
    · have ha := (E.wakes_modifyRuleOf r (f := (·.recordFact E.now (E.runAt r).trigger.node
        (E.runAt r).trigger.name (E.runAt r).trigger.value)) fun _ => rfl).trans
        (wakes_touch _ r (f := fun x => { x with admitted := true })
          fun _ => ⟨rfl, rfl, rfl, rfl⟩)
      split
      · exact ha.trans (wakes_claim _ r)
      · exact ha.trans (wakes_defer _ r)

theorem wakes_wakeDeferred (E : Engine) (r g due : Nat) (cancelled second : Bool) :
    E.Wakes (E.wakeDeferred r g due cancelled second) := by
  unfold wakeDeferred
  split
  · refine (E.wakes_modifyRuleOf r fun x => ?_).trans (wakes_claim _ r)
    rw [Rule.finishPending_eq]
  · split
    · exact (E.wakes_notice _).trans (wakes_setStage _ r rfl)
    · exact .refl E

theorem wakes_wakeWaiting (E : Engine) (r : Nat) (second : Bool) :
    E.Wakes (E.wakeWaiting r second) := by
  unfold wakeWaiting
  dsimp only
  split
  · exact (E.wakes_hold r _).trans (wakes_start _ r)
  · split
    · refine Wakes.trans ?_ (wakes_finish _ r _)
      exact (E.wakes_modifySlot _ _).trans (wakes_notice _ _)
    · split
      · exact E.wakes_modifySlot _ _
      · exact .refl E

theorem wakes_wakeDelayed (E : Engine) (r due : Nat) (second : Bool) :
    E.Wakes (E.wakeDelayed r due second) := by
  unfold wakeDelayed
  dsimp only
  split
  · exact E.wakes_act r
  · split
    · exact E.wakes_forgo r
    · exact .refl E

theorem wakes_performRun (E : Engine) (r : Nat) (second : Bool) :
    E.Wakes (E.performRun r second) := by
  unfold performRun
  split
  · exact .refl E
  · split
    · exact E.wakes_arrive r
    · exact E.wakes_wakeDeferred r _ _ _ second
    · exact E.wakes_wakeWaiting r second
    · exact E.wakes_wakeDelayed r _ second
    · split
      · exact E.wakes_expire r _
      · exact .refl E
    · exact .refl E

/-! ## Retirement -/

theorem mem_foldl_wake {r : Nat} : ∀ {rs : List Nat} {E : Engine}, r ∈ rs →
    Job.run r ∈ (rs.foldl (fun E r => E.wake (.run r)) E).ready := by
  intro rs
  induction rs with
  | nil => intro E hr; cases hr
  | cons m rest ih =>
    intro E hr
    rcases List.mem_cons.mp hr with rfl | hr
    · exact (wakes_foldl (fun E m => E.wakes_wake rfl) rest _).ready _ (mem_wake _)
    · exact ih hr

theorem wakes_signalRetirement (E : Engine) (n : Nat) (p : Option (Nat × Nat)) :
    E.Wakes (E.signalRetirement n p) := by
  have hw := wakes_foldl (fun E r => E.wakes_wake (j := .run r) rfl) (E.listening n) E
  unfold signalRetirement
  cases p with
  | none => exact hw
  | some p => exact hw.trans (wakes_cancelDeferral _ _)

/-- All runs of an instance that listen hear of its retirement. -/
theorem mem_signalRetirement {r n : Nat} (hn : (E.runAt r).rule = n)
    (hl : (E.runAt r).stage.listens = true) (p : Option (Nat × Nat)) :
    Job.run r ∈ (E.signalRetirement n p).ready := by
  have hr := lt_of_listens hl
  have hheeds : heedsRetirement (E.runAt r) n = true := by
    unfold heedsRetirement
    rw [hn, beq_self_eq_true, Bool.true_and]
    exact hl
  have hmem : r ∈ E.listening n := List.mem_filter.mpr ⟨List.mem_range.mpr hr, hheeds⟩
  have hw := mem_foldl_wake (E := E) hmem
  unfold signalRetirement
  cases p with
  | none => exact hw
  | some p => exact (wakes_cancelDeferral _ _).ready r hw

/-- Retiring a single instance wakes all whom it calls. -/
theorem wakes_retire (E : Engine) {R : Registry} {n : Nat}
    (hR : ∀ m, m ≠ n → (R.instances.getD m default).retired = true →
      (E.registry.instances.getD m default).retired = true) (p : Option (Nat × Nat)) :
    E.Wakes ({ E with registry := R }.signalRetirement n p) := by
  have hw := wakes_signalRetirement { E with registry := R } n p
  refine ⟨⟨hw.ready, fun r hr => ?_, hw.revoked⟩, ⟨hw.writes, hw.client, hw.calls⟩⟩
  -- whoever is for the retired instance is woken; the others were called before
  rcases hw.called r hr with ⟨hret, hl⟩ | hready
  · by_cases hn : (E.runAt r).rule = n
    · exact .inr (mem_signalRetirement (E := { E with registry := R }) hn hl p)
    · exact .inl ⟨hR _ hn hret, hl⟩
  · exact .inr hready

theorem getD_append_retired {is : List Instance} {d : Definition} {m : Nat}
    (h : ((is ++ [Instance.ofDefinition d]).getD m default).retired = true) :
    (is.getD m default).retired = true := by
  rcases Core.getD_concat_or is (Instance.ofDefinition d) default m with hm | ⟨-, hm⟩
  · rwa [hm] at h
  · rw [hm] at h
    cases h

/-- An instance that is new is not retired. -/
theorem wakes_append (E : Engine) {R : Registry} {d : Definition}
    (hR : R.instances = E.registry.instances ++ [Instance.ofDefinition d]) :
    E.Wakes { E with registry := R } := by
  refine wakes_of_instances ⟨fun _ => id, fun r hr => .inl ⟨?_, hr.2⟩, fun _ => .inl⟩ rfl rfl rfl
  have hret : (R.instances.getD (E.runAt r).rule default).retired = true := hr.1
  rw [hR] at hret
  exact getD_append_retired hret

theorem getD_modify_ne {is : List Instance} {f : Instance → Instance} {m n : Nat} (hm : m ≠ n) :
    (is.modify n f).getD m default = is.getD m default := by
  simp [List.getD_eq_getElem?_getD, Ne.symm hm]

theorem wakes_define (E : Engine) (d : Definition) : E.Wakes (E.define d).1 := by
  unfold define Registry.register
  cases d.check with
  | error e => exact .refl E
  | ok u =>
    dsimp only [Registry.add]
    cases E.registry.number? d.id with
    | none =>
      dsimp only
      refine Wakes.trans ?_ (wakes_notice _ _)
      exact E.wakes_append rfl
    | some old =>
      dsimp only
      refine Wakes.trans ?_ (wakes_notice _ _)
      refine E.wakes_retire (fun m hm hret => ?_) _
      dsimp only [Registry.retire, Registry.modify, Registry.enforce] at hret
      rw [getD_modify_ne hm] at hret
      exact getD_append_retired hret

theorem wakes_deregister (E : Engine) (id : String) : E.Wakes (E.deregister id).1 := by
  unfold deregister Registry.deregister
  cases E.registry.number? id with
  | none => exact .refl E
  | some n =>
    dsimp only [Registry.retire, Registry.modify]
    cases E.registry.host with
    | none =>
      dsimp only
      refine Wakes.trans ?_ (wakes_notice _ _)
      exact E.wakes_retire (fun m hm hret => by rwa [getD_modify_ne hm] at hret) _
    | some g =>
      dsimp only
      refine Wakes.trans ?_ (wakes_notice _ _)
      exact E.wakes_retire (fun m hm hret => by rwa [getD_modify_ne hm] at hret) _

/-! ## Rules -/

theorem wakes_observe (E : Engine) (node id : String) : E.Wakes (E.observe node id).1 := by
  unfold observe Registry.observe
  split
  · exact .refl E
  · next r' he =>
    refine Wakes.trans ?_ (wakes_notice _ _)
    split at he
    · cases he
    · split at he
      · cases he
      · cases he
        exact wakes_of_same rfl rfl rfl rfl

theorem wakes_setPaused (E : Engine) (id : String) (paused : Bool) :
    E.Wakes (E.setPaused id paused).1 := by
  unfold setPaused
  split
  · exact .refl E
  · refine Wakes.trans ?_ (wakes_notice _ _)
    exact E.wakes_modifyInstance _ fun _ h => h

theorem wakes_wakeWorkers (E : Engine) : E.Wakes E.wakeWorkers :=
  wakes_foldl (fun E _ => E.wakes_wake rfl) _ E

theorem wakes_dispatch (E : Engine) (t : Trigger) : E.Wakes (E.dispatch t).1 := by
  unfold dispatch
  split
  · exact .refl E
  · dsimp only
    split
    · exact (E.wakes_notice _).trans (wakes_notice _ _)
    · refine Wakes.trans ?_ (wakes_wakeWorkers _)
      exact wakes_of_same rfl rfl rfl rfl

theorem wakes_of_alike (hr : E'.runs = E.runs)
    (ha : List.Forall₂ Instance.Alike E.registry.instances E'.registry.instances)
    (hw : E'.writes = E.writes) (hj : E'.ready = E.ready) : E.Wakes E' := by
  refine wakes_of_instances ⟨fun _ h => hj ▸ h, fun r hc => .inl ?_, fun r hc => .inl (hc.congr hr)⟩
    hr hw hj
  have hx : E'.runAt r = E.runAt r := by rw [runAt, hr]; rfl
  unfold Called ruleOf at hc ⊢
  rw [hx, (alike_getD ha _).rest] at hc
  exact hc

theorem wakes_sweep (E : Engine) : E.Wakes E.sweep.1 :=
  wakes_of_alike rfl (alike_sweep E.registry E.now).2 rfl rfl

theorem wakes_tickCrew (E : Engine) (c : Nat) : E.Wakes (E.tickCrew c) := by
  have hk : E.Wakes E.keepHouse := by
    unfold keepHouse
    dsimp only
    split
    · refine Wakes.trans ?_ (wakes_notice _ _)
      exact E.wakes_sweep.trans (wakes_of_same rfl rfl rfl rfl)
    · exact E.wakes_sweep.trans (wakes_of_same rfl rfl rfl rfl)
  unfold tickCrew
  split
  · exact hk.trans (wakes_of_same rfl rfl rfl rfl)
  · exact .refl E

theorem wakes_strike (E : Engine) (t : Nat) : E.Wakes (E.strike t) := by
  unfold strike
  refine Wakes.trans ?_ (wakes_foldl (fun E _ => E.wakes_wake rfl) _ _)
  refine Wakes.trans ?_ (wakes_foldl wakes_tickCrew _ _)
  exact wakes_of_same rfl rfl rfl rfl

/-! ## Workers and writers -/

theorem runAt_spawn (E : Engine) (n : Nat) (t : Trigger) (a : Admission) (c : Client) (r : Nat) :
    (E.spawn n t a c).1.runAt r = E.runAt r ∨
      (E.spawn n t a c).1.runAt r = { rule := n, trigger := t, admission := a, client := c } :=
  (Core.getD_concat_or _ _ _ _).imp id And.right

/-- A run that begins has nothing to listen for. -/
theorem rouses_spawn (E : Engine) (n : Nat) (t : Trigger) (a : Admission) (c : Client) :
    E.Rouses (E.spawn n t a c).1 := by
  have hrule : ∀ r, (E.spawn n t a c).1.ruleOf r
      = E.registry.instances.getD ((E.spawn n t a c).1.runAt r).rule default := fun _ => rfl
  refine ⟨fun _ h => h, fun r hr => .inl ?_, fun r hr => .inl ?_⟩
  · unfold Called at hr
    rw [hrule] at hr
    rcases E.runAt_spawn n t a c r with hx | hx
    · rw [hx] at hr
      exact hr
    · rw [hx] at hr
      exact absurd hr.2 Bool.noConfusion
  · rcases E.runAt_spawn n t a c r with hx | hx
    · rw [Revoked, hx] at hr
      exact hr
    · rw [Revoked, hx] at hr
      cases hr

theorem wakes_spawn (E : Engine) (n : Nat) (t : Trigger) (a : Admission) {c : Client}
    (hc : c.isWrite = false) : E.Wakes (E.spawn n t a c).1 := by
  refine ⟨E.rouses_spawn n t a c, ⟨rfl, fun r k hk => ?_, fun k => ?_⟩⟩
  · rcases E.runAt_spawn n t a c r with hx | hx
    · rwa [hx] at hk
    · rw [hx] at hk
      exact absurd hk (Client.ne_write hc k)
  · have hne := Client.ne_write hc k
    simp [calls, spawn, isOpen, hne]

theorem wakes_assign (E : Engine) (c w : Nat) (t : Trigger) : E.Wakes (E.assign c w t) := by
  unfold assign
  split
  · exact ((E.wakes_notice _).trans (wakes_setWorker _ _ _ _)).trans (wakes_goOn _ rfl)
  · exact ((E.wakes_spawn _ t _ rfl).trans (wakes_setWorker _ _ _ _)).trans (wakes_goOn _ rfl)

theorem wakes_served (E : Engine) (c w : Nat)
    (r : DispatchQueue Trigger (Nat × Nat) × Option Trigger) : E.Wakes (E.served c w r) := by
  have hq : E.Wakes { E with queue := r.1 } := wakes_of_same rfl rfl rfl rfl
  unfold served
  dsimp only
  split
  · exact hq.trans (wakes_assign _ c w _)
  · exact hq.trans (wakes_setWorker _ c w _)

theorem wakes_stopWorker (E : Engine) (c w : Nat) : E.Wakes (E.stopWorker c w) := by
  unfold stopWorker wakeStops
  refine Wakes.trans ?_ (wakes_foldl (fun E _ => E.wakes_wake rfl) _ _)
  exact (E.wakes_setWorker c w _).trans (wakes_notice _ _)

theorem wakes_leave (E : Engine) (c w : Nat) : E.Wakes (E.leave c w) := by
  unfold leave
  refine Wakes.trans ?_ (wakes_stopWorker _ c w)
  refine Wakes.trans ?_ (wakes_wakeWorkers _)
  exact wakes_of_same rfl rfl rfl rfl

theorem wakes_performWorker (E : Engine) (c w : Nat) (second : Bool) :
    E.Wakes (E.performWorker c w second) := by
  unfold performWorker
  dsimp only
  split
  · split
    · exact E.wakes_stopWorker c w
    · exact E.wakes_served c w _
  · split
    · split
      · exact (E.wakes_served c w _).trans (wakes_leave _ c w)
      · exact E.wakes_served c w _
    · split
      · exact E.wakes_leave c w
      · exact .refl E
  · exact .refl E

theorem wakes_performStop (E : Engine) (k : Nat) : E.Wakes (E.performStop k) := by
  unfold performStop
  split
  · exact .refl E
  · split
    · exact .refl E
    · refine Wakes.trans ?_ (wakes_finishTask _ _ _)
      refine Wakes.trans ?_ (wakes_notice _ _)
      exact wakes_of_same rfl rfl rfl rfl

theorem rouses_performWrite (E : Engine) (k : Nat) : E.Rouses (E.performWrite k) := by
  unfold performWrite
  split
  · exact (Wakes.refl E).toRouses
  · next x _ =>
    split
    · exact (E.wakes_finishTask _ _).toRouses
    · next rule rest _ =>
      have hx : E.Rouses { E with writes := E.writes.set k { x with remaining := rest } } :=
        rouses_of_same rfl rfl fun _ h => h
      dsimp only
      split
      · exact (hx.trans (wakes_notice _ _).toRouses).trans (rouses_goOn _ _)
      · exact (hx.trans (rouses_spawn _ _ _ _ _)).trans (rouses_goOn _ _)

/-! ## Scripts -/

section Scripts

open Script (Process Reply Fault Value)

variable (E)

theorem wakes_resumeScript (e : Nat) (p : Process (Except Fault Value)) :
    E.Wakes (E.resumeScript e p) := (E.wakes_setEvaluation e _).trans (wakes_goOn _ rfl)

theorem wakes_answerScript (e : Nat) (cancels : Bool) (a : Except String Json)
    (next : Reply → Process (Except Fault Value)) : E.Wakes (E.answerScript e cancels a next) := by
  unfold answerScript
  refine Wakes.trans ?_ (wakes_resumeScript _ e _)
  exact wakes_of_same rfl rfl rfl rfl

theorem wakes_pass (e : Nat) (command : String) (next : Reply → Process (Except Fault Value)) :
    E.Wakes (E.pass e command next) := by
  unfold pass
  exact (E.wakes_say _).trans (wakes_resumeScript _ e _)

theorem wakes_reachGate (e : Nat) (command gate : String)
    (next : Reply → Process (Except Fault Value)) : E.Wakes (E.reachGate e command gate next) := by
  unfold reachGate
  split
  · refine Wakes.trans ?_ (wakes_pass _ e command next)
    exact wakes_of_same rfl rfl rfl rfl
  · exact E.wakes_setEvaluation e _

theorem wakes_openGate (gate : String) : E.Wakes (E.openGate gate) := by
  unfold openGate
  split
  · exact wakes_of_same rfl rfl rfl rfl
  · split
    · exact E.wakes_pass _ _ _
    · exact .refl E

theorem wakes_obey (node : String) (o : Order) : E.Wakes (E.obey node o).1 := by
  cases o with
  | deregister rule => exact E.wakes_deregister rule
  | pause rule => exact E.wakes_setPaused rule true
  | resume rule => exact E.wakes_setPaused rule false
  | register rule condition action => exact E.wakes_define _
  | dispatch rule name value => exact E.wakes_dispatch _
  | cancel => exact .refl E
  | unknown word => exact .refl E

theorem wakes_fire (e : Nat) (t : Trigger) (next : Reply → Process (Except Fault Value)) :
    E.Wakes (E.fire e t next) := by
  unfold fire
  split
  · exact E.wakes_resumeScript e _
  · exact ((E.wakes_setEvaluation e _).trans (wakes_spawn _ _ _ _ rfl)).trans (wakes_goOn _ rfl)

theorem wakes_concludeScript (e : Nat) (result : Except String (Except Fault Value)) :
    E.Wakes (E.concludeScript e result) := by
  have he := E.wakes_setEvaluation e .ended
  unfold concludeScript
  dsimp only
  split
  · split
    · cases result with
      | error m => exact he.trans (wakes_breakOff _ _ m)
      | ok v => exact he.trans (wakes_decideOn _ _ _)
    · exact he
  · split
    · cases result with
      | error m => exact he.trans (wakes_conclude _ _ _)
      | ok v => exact he.trans (wakes_conclude _ _ _)
    · exact he
  · exact he

theorem wakes_invoke (e : Nat) (command : String) (args : List Json)
    (next : Reply → Process (Except Fault Value)) : E.Wakes (E.invoke e command args next) := by
  unfold invoke
  dsimp only
  split
  · exact E.wakes_resumeScript e _
  · next commands device calls _ =>
    -- whatever the command is, its call is noted first
    generalize hE : Engine.say _ _ = E₁
    have h₁ : E.Wakes E₁ := by
      rw [← hE]
      refine Wakes.trans ?_ (wakes_say _ _)
      exact wakes_of_same rfl rfl rfl rfl
    refine h₁.trans ?_
    cases device with
    | plain c =>
      dsimp only
      split
      · exact E₁.wakes_answerScript e _ _ next
      · exact E₁.wakes_concludeScript e _
    | gate => exact E₁.wakes_reachGate e _ _ next
    | fire => exact E₁.wakes_fire e _ next
    | order => exact (E₁.wakes_obey _ _).trans (wakes_answerScript _ e _ _ next)

theorem wakes_performScript (e : Nat) : E.Wakes (E.performScript e) := by
  unfold performScript
  dsimp only
  split
  · exact E.wakes_concludeScript e _
  · exact E.wakes_concludeScript e _
  · exact (E.wakes_say _).trans (wakes_resumeScript _ e _)
  · split
    · exact E.wakes_resumeScript e _
    · exact E.wakes_invoke e _ _ _
  · exact .refl E

end Scripts

/-! ## Turns -/

theorem wakes_perform (E : Engine) {j : Job} (hj : j.isWrite = false) (second : Bool) :
    E.Wakes (E.perform j second) := by
  cases j with
  | run r => exact E.wakes_performRun r second
  | script e => exact E.wakes_performScript e
  | write k => cases hj
  | worker c w => exact E.wakes_performWorker c w second
  | stop k => exact E.wakes_performStop k

theorem rouses_perform (E : Engine) (j : Job) (second : Bool) : E.Rouses (E.perform j second) := by
  cases hj : j.isWrite with
  | false => exact (E.wakes_perform hj second).toRouses
  | true =>
    cases j with
    | write k => exact E.rouses_performWrite k
    | _ => cases hj

/-! ## From outside -/

theorem wakes_stopWork (E : Engine) : E.Wakes E.stopWork.1 := by
  have hd : ∀ (E : Engine) (c : Nat), E.Wakes (E.dismiss c) := by
    intro E c
    unfold dismiss
    refine Wakes.trans ?_ (wakes_foldl (fun E _ => E.wakes_wake rfl) _ _)
    exact wakes_of_same rfl rfl rfl rfl
  unfold stopWork
  dsimp only
  split
  · exact wakes_of_same rfl rfl rfl rfl
  · refine Wakes.trans ?_ (wakes_wake _ rfl)
    refine Wakes.trans ?_ (hd _ _)
    exact wakes_of_same rfl rfl rfl rfl

theorem wakes_startWork (E : Engine) : E.Wakes E.startWork.1 := by
  unfold startWork hire
  split
  · exact .refl E
  · dsimp only
    refine Wakes.trans ?_ (wakes_foldl (fun E _ => E.wakes_wake rfl) _ _)
    refine Wakes.trans ?_ (wakes_notice _ _)
    exact wakes_of_same rfl rfl rfl rfl

theorem wakes_abandonRunOf (E : Engine) (c : Client) : E.Wakes (E.abandonRunOf c) := by
  unfold abandonRunOf
  split
  · exact .refl E
  · refine Wakes.trans ?_ (wakes_free _ _)
    exact (E.wakes_modifySlot _ _).trans (wakes_setStage _ _ rfl)

theorem wakes_unguard (E : Engine) (name : String) : E.Wakes (E.unguard name).1 := by
  unfold unguard
  split
  · exact .refl E
  · dsimp only
    refine Wakes.trans ?_ (wakes_foldl (fun E _ => E.wakes_wake rfl) _ _)
    have hs := fun n slot => E.wakes_modifySlot n fun _ => slot
    exact (hs _ _).trans (wakes_of_same rfl rfl rfl rfl)

theorem wakes_guard (E : Engine) (n : Nat) (name : String) : E.Wakes (E.guard n name).1 := by
  unfold guard
  split
  · exact .refl E
  · next slot _ =>
    refine Wakes.trans ((E.wakes_modifySlot n fun _ => slot).trans (wakes_unguard _ name)) ?_
    exact wakes_of_same rfl rfl rfl rfl

theorem wakes_notify (E : Engine) (n : Nat) (t : Trigger) (a : Admission) :
    E.Wakes (E.notify n t a).1 := by
  have ht : E.Wakes E.startTask.1 := wakes_of_same rfl rfl rfl rfl
  unfold notify
  dsimp only
  refine Wakes.trans ?_ (wakes_wake _ rfl)
  exact ht.trans (wakes_spawn _ n t a rfl)

theorem rouses_write (E : Engine) (a : Aspect) (node name : String) (value : Json) :
    E.Rouses (E.write a node name value).1 := by
  unfold write
  dsimp only
  split
  · refine Rouses.trans ?_ (rouses_wake _ _)
    exact rouses_of_same rfl rfl fun _ h => h
  · refine Rouses.trans ?_ (rouses_wake _ _)
    exact rouses_of_same rfl rfl fun _ h => h

theorem rouses_abandonWrite (E : Engine) (k : Nat) : E.Rouses (E.abandonWrite k) := by
  refine Rouses.trans ?_ (wakes_abandonRunOf _ _).toRouses
  refine rouses_of_same rfl rfl fun r hr => ?_
  exact (List.mem_erase_of_ne Job.noConfusion).mpr hr

theorem wakes_serve (E : Engine) {q : Request} (hq : q.isWrite = false) : E.Wakes (E.serve q) := by
  cases q with
  | define d => exact E.wakes_define d
  | deregister id => exact E.wakes_deregister id
  | observe node id => exact E.wakes_observe node id
  | setPaused id paused => exact E.wakes_setPaused id paused
  | dispatch t => exact E.wakes_dispatch t
  | sweep => exact E.wakes_sweep
  | notify n t a => exact E.wakes_notify n t a
  | write a node name value => cases hq
  | abandon task => exact E.wakes_abandonRunOf _
  | abandonWrite k => cases hq
  | guard n name => exact E.wakes_guard n name
  | unguard name => exact E.wakes_unguard name
  | clearFacts n => exact E.wakes_modifyInstance n fun _ h => h
  | add d => exact E.wakes_append rfl
  | openGate gate => exact E.wakes_openGate gate
  | start => exact E.wakes_startWork
  | stop => exact E.wakes_stopWork
  | _ => exact wakes_of_same rfl rfl rfl rfl

theorem rouses_serve (E : Engine) (q : Request) : E.Rouses (E.serve q) := by
  cases hq : q.isWrite with
  | false => exact (E.wakes_serve hq).toRouses
  | true =>
    cases q with
    | write a node name value => exact E.rouses_write a node name value
    | abandonWrite k => exact E.rouses_abandonWrite k
    | _ => cases hq

end Engine

end ReactiveRules
