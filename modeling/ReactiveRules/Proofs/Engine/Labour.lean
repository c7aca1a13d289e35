import ReactiveRules.Proofs.Dispatch.Line
import ReactiveRules.Proofs.Engine.Staff

/-!
# `Proofs/Engine/Labour.lean` — what a step comes to for the workers

A worker that takes a turn is handed the entry that is next, waits, or leaves because its crew has
been told to stop (`Engine.Works`). **Every step of an engine comes to one of six things**
(`Engine.Step.labour`): an entry comes into the queue, a worker has its turn, a crew is hired, told
to stop or has stopped, or the queue and its workers are left alone. That a worker is woken only
while it waits, and the like, goes along (`Engine.Staffed`).
-/

set_option autoImplicit false

namespace ReactiveRules

open DispatchQueue (least?)

namespace Engine

variable {E E' E'' : Engine} {c w : Nat} {e : QueueEntry Trigger}

/-- Whoever is busy has a run, whoever waits stands in the line, and whoever is to look has a turn
to come. -/
structure Lined (E : Engine) : Prop where
  manned : E.Manned
  looking : ∀ c w, E.workerAt c w = .looking → Job.worker c w ∈ E.ready
  idle : ∀ c w, E.workerAt c w = .idle ↔ (c, w) ∈ E.queue.line
  nodup : E.queue.line.Nodup
  woken : ∀ c w, (c, w) ∈ E.queue.woken → Job.worker c w ∈ E.ready
  fed : E.queue.Fed

/-- What holds of workers and their queue at all times. -/
structure Staffed (E : Engine) : Prop extends Lined E where
  size : ∀ c < E.crews.length, (E.crewAt c).workers.length = E.settings.dispatchWorkers.toNat
  running : ∀ c, E.running = some c → c < E.crews.length ∧ (E.crewAt c).shutdown = false
  /-- A worker has stopped only if its crew was told to. -/
  stopped : ∀ c w, w < (E.crewAt c).workers.length → E.workerAt c w = .stopped →
    (E.crewAt c).shutdown = true
  known : ∀ s ∈ E.stops, s.crew < E.crews.length
  /-- A crew whose stop has been answered has stopped. -/
  answered : ∀ s ∈ E.stops, s.answered = true → ∀ w, E.workerAt s.crew w = .stopped
  /-- A crew that is not at work was told to stop. -/
  dismissed : ∀ c < E.crews.length, E.running = some c ∨ ∃ s ∈ E.stops, s.crew = c

/-! ## What a step comes to -/

/-- A trigger enters the queue, and whoever that wakes has a turn to come. -/
structure Enters (E E' : Engine) (e : QueueEntry Trigger) : Prop where
  registered : ∃ i, E.registry.find? e.payload.rule = some i ∧
    e.priority = i.definition.priority.toInt
  fresh : E.queue.suppressed E.now e.payload = false
  order : e.order = E.queue.nextOrder
  queue : E'.queue = E.queue.accept E.now e.payload e.priority
  aside : Aside { E with queue := E'.queue } E'
  woken : ∀ c w, (c, w) ∈ E'.queue.woken → Job.worker c w ∈ E'.ready

/-- A worker changes to a state, and joins or leaves the line accordingly. -/
structure Posts (E E' : Engine) (c w : Nat) (s : WorkerState) : Prop where
  settings : E'.settings = E.settings
  running : E'.running = E.running
  stops : E'.stops = E.stops
  crews : E'.crews.length = E.crews.length
  shutdown : ∀ c, (E'.crewAt c).shutdown = (E.crewAt c).shutdown
  size : ∀ c, (E'.crewAt c).workers.length = (E.crewAt c).workers.length
  worker : ∀ c' w', E'.workerAt c' w' = if c = c' ∧ w = w' then s else E.workerAt c' w'
  ready : ∀ c' w', Job.worker c' w' ∈ E.ready → ¬ (c = c' ∧ w = w') → Job.worker c' w' ∈ E'.ready
  line : ∀ p, p ∈ E'.queue.line ↔ p ∈ E.queue.line ∧ p ≠ (c, w) ∨ p = (c, w) ∧ s = .idle
  nodup : E'.queue.line.Nodup
  fed : E'.queue.Fed
  woken : ∀ c w, (c, w) ∈ E'.queue.woken → Job.worker c w ∈ E'.ready
  nextOrder : E'.queue.nextOrder = E.queue.nextOrder
  accepted : E'.queue.accepted = E.queue.accepted

/-- A worker that is free takes the entry that is next, and hands it to a run of the instance in
force or, if there is none, drops it. -/
structure Hands (E E' : Engine) (c w : Nat) (e : QueueEntry Trigger) : Prop where
  free : E.workerAt c w = .looking ∨ E.workerAt c w = .idle
  next : least? E.queue.entries = some e
  entries : E'.queue.entries = E.queue.entries.filter (·.order != e.order)
  run : ∀ n, E.registry.number? e.payload.rule = some n →
    E'.runs = E.runs ++ [{ rule := n, trigger := e.payload, admission := .wait
                           client := .worker c w }] ∧
      E'.journal = E.journal ∧ E'.workerAt c w = .busy E.runs.length
  drop : E.registry.number? e.payload.rule = none →
    E'.runs = E.runs ∧
      E'.journal = E.journal ++ [(E.now, .notice (.dispatchUnknown w e.payload.rule))] ∧
      E'.workerAt c w = .looking ∧ E'.ready.head? = some (.worker c w)

/-- What the turn of a worker comes to. -/
inductive Works (E E' : Engine) (c w : Nat) : Prop
  /-- It is busy, or it waits and was not woken. -/
  | rests (hl : E.workerAt c w ≠ .looking) (he : E'.queue.entries = E.queue.entries)
    (hr : E'.runs = E.runs) (hp : E.Posts E' c w (E.workerAt c w))
  | waits (hf : E.workerAt c w = .looking ∨ E.workerAt c w = .idle)
    (he : E'.queue.entries = E.queue.entries) (hr : E'.runs = E.runs) (hp : E.Posts E' c w .idle)
  | leaves (hf : E.workerAt c w = .looking ∨ E.workerAt c w = .idle)
    (hd : (E.crewAt c).shutdown = true)
    (he : E'.queue.entries = E.queue.entries) (hr : E'.runs = E.runs)
    (hp : E.Posts E' c w .stopped)
  | hands {e : QueueEntry Trigger} (hh : E.Hands E' c w e)
    (hp : E.Posts E' c w (E'.workerAt c w))

/-- A crew is hired, all of whose workers are about to look. -/
structure Hires (E E' : Engine) : Prop where
  idle : E.running = none
  queue : E'.queue = E.queue
  settings : E'.settings = E.settings
  running : E'.running = some E.crews.length
  stops : E'.stops = E.stops
  runs : E'.runs = E.runs
  crews : ∃ tick, E'.crews = E.crews ++
    [{ workers := List.replicate E.settings.dispatchWorkers.toNat .looking, tick }]
  ready : ∀ c w, Job.worker c w ∈ E.ready → Job.worker c w ∈ E'.ready
  looks : ∀ w < E.settings.dispatchWorkers.toNat, Job.worker E.crews.length w ∈ E'.ready

/-- The crew at work is told to stop. -/
structure Dismisses (E E' : Engine) (c : Nat) : Prop where
  busy : E.running = some c
  queue : E'.queue = E.queue
  settings : E'.settings = E.settings
  running : E'.running = none
  stops : ∃ task, E'.stops = E.stops ++ [{ crew := c, task }]
  runs : E'.runs = E.runs
  crews : E'.crews = E.crews.modify c fun x => { x with shutdown := true }
  ready : ∀ c w, Job.worker c w ∈ E.ready → Job.worker c w ∈ E'.ready

/-- A stop is answered: the crew has stopped. -/
structure Answers (E E' : Engine) (s : StopRequest) : Prop where
  pending : s ∈ E.stops
  stopped : ∀ w, E.workerAt s.crew w = .stopped
  queue : E'.queue = E.queue
  settings : E'.settings = E.settings
  running : E'.running = E.running
  stops : ∃ k, E.stops[k]? = some s ∧ E'.stops = E.stops.set k { s with answered := true }
  runs : E'.runs = E.runs
  crews : E'.crews = E.crews.modify s.crew fun x => { x with tick := none }
  ready : ∀ c w, Job.worker c w ∈ E.ready → Job.worker c w ∈ E'.ready

/-- What a step comes to for the workers. -/
inductive Labour (E E' : Engine) : Prop
  | attends (h : E.Attends E')
  | enters {e : QueueEntry Trigger} (h : E.Enters E' e)
  | works {c w : Nat} (h : E.Works E' c w)
  | hires (h : E.Hires E')
  | dismisses {c : Nat} (h : E.Dismisses E' c)
  | answers {s : StopRequest} (h : E.Answers E' s)

/-! ## A turn at the queue -/

/-- What the turn of a waiter gives: it is served the entry that is next, or there is none and it
waits behind the others. -/
structure Looks (q : DispatchQueue Trigger (Nat × Nat)) (x : Nat × Nat)
    (r : DispatchQueue Trigger (Nat × Nat) × Option Trigger) : Prop where
  line : r.1.line = if r.2.isSome then q.line.erase x else q.line.erase x ++ [x]
  woken : r.1.woken = q.woken.erase x
  fed : r.1.Fed
  kept : r.1.nextOrder = q.nextOrder ∧ r.1.accepted = q.accepted
  served : ∀ t, r.2 = some t → ∃ e, least? q.entries = some e ∧ e.payload = t ∧
    r.1.entries = q.entries.filter (·.order != e.order)
  waits : r.2 = none → r.1.entries = q.entries

section Looks

variable {q : DispatchQueue Trigger (Nat × Nat)} {x : Nat × Nat}

theorem looks_of_take {q₁ : DispatchQueue Trigger (Nat × Nat)} (hw : q₁.woken = q.woken.erase x)
    (he : q₁.entries = q.entries)
    (hn : q₁.nextOrder = q.nextOrder ∧ q₁.accepted = q.accepted) (hf : (q₁.take x).1.Fed)
    (hl : (q₁.take x).1.line = if (q₁.take x).2.isSome then q.line.erase x
      else q.line.erase x ++ [x]) : Looks q x (q₁.take x) := by
  rcases q₁.take_cases x with ⟨e, hnext, hq⟩ | ⟨hnil, hq⟩
  · refine ⟨hl, ?_, hf, ?_, fun t ht => ⟨e, he ▸ hnext, ?_, ?_⟩, fun ht => ?_⟩
    · rw [hq]; exact hw
    · rw [hq]; exact hn
    · rw [hq] at ht; exact Option.some.inj ht
    · rw [hq, ← he]
    · rw [hq] at ht; cases ht
  · refine ⟨hl, ?_, hf, ?_, fun t ht => ?_, fun _ => ?_⟩
    · rw [hq]; exact hw
    · rw [hq]; exact hn
    · rw [hq] at ht; cases ht
    · rw [hq]; exact he

/-- One that has not waited looks. -/
theorem looks_take (hf : q.Fed) (hx : x ∉ q.line) : Looks q x (q.take x) := by
  have hw : x ∉ q.woken := fun h => hx (List.mem_append_left _ h)
  refine looks_of_take (List.erase_of_not_mem hw).symm rfl ⟨rfl, rfl⟩ (hf.take x) ?_
  rw [List.erase_of_not_mem hx]
  exact q.line_take x

/-- One that has waited and was woken looks. -/
theorem looks_resume (hf : q.Fed) (hx : x ∈ q.woken) : Looks q x (q.resume x) :=
  looks_of_take rfl rfl ⟨rfl, rfl⟩ (hf.resume hx) (q.line_resume hx)

end Looks

/-! ## A worker changes -/

/-- Whoever is woken has a turn to come. -/
theorem mem_ready_foldl {α : Type} {f : α → Job} {a : α} (hf : f a = .worker c w) :
    ∀ {xs : List α} {E : Engine}, a ∈ xs →
      Job.worker c w ∈ (xs.foldl (fun E a => E.wake (f a)) E).ready := by
  intro xs
  induction xs with
  | nil => intro E h; cases h
  | cons x rest ih =>
    intro E h
    rcases List.mem_cons.mp h with rfl | h
    · exact (aside_foldl (fun E a => E.aside_wake (f a)) rest _).ready c w (hf ▸ mem_wake (f a))
    · exact ih h

theorem mem_ready_wakeWorkers (h : (c, w) ∈ E.queue.woken) :
    Job.worker c w ∈ E.wakeWorkers.ready :=
  mem_ready_foldl (f := fun x : Nat × Nat => .worker x.1 x.2) rfl h

theorem aside_erase {j : Job} (hj : ∀ c w, j ≠ .worker c w) :
    E.Aside { E with ready := E.ready.erase j } :=
  ⟨rfl, rfl, rfl, rfl, rfl, rfl, fun c w h => (List.mem_erase_of_ne (hj c w).symm).mpr h⟩

theorem aside_wakeWorkers (E : Engine) : E.Aside E.wakeWorkers :=
  aside_foldl (fun E _ => E.aside_wake _) _ E

theorem aside_wakeStops (E : Engine) (c : Nat) : E.Aside (E.wakeStops c) :=
  aside_foldl (fun E _ => E.aside_wake _) _ E

theorem aside_setWorker (h : E.Aside E') (c w : Nat) (s : WorkerState) :
    Aside (E.setWorker c w s) (E'.setWorker c w s) :=
  ⟨h.queue, h.settings, h.running, h.stops, congrArg (List.modify · c _) h.crews, h.runs, h.ready⟩

theorem aside_stopWorker (E : Engine) (c w : Nat) :
    Aside (E.setWorker c w .stopped) (E.stopWorker c w) :=
  (aside_say _ _).trans (aside_wakeStops _ c)

theorem aside_leave (E : Engine) (c w : Nat) :
    Aside (({ E with queue := E.queue.abort (c, w) }).setWorker c w .stopped) (E.leave c w) :=
  (aside_setWorker (aside_wakeWorkers _) c w .stopped).trans (aside_stopWorker _ c w)

/-- Whoever is woken by one that leaves has a turn to come. -/
theorem mem_ready_leave {c' w' : Nat} (h : (c', w') ∈ (E.queue.abort (c, w)).woken) :
    Job.worker c' w' ∈ (E.leave c w).ready :=
  (aside_stopWorker _ c w).ready c' w'
    (mem_ready_wakeWorkers (E := { E with queue := E.queue.abort (c, w) }) h)

theorem entries_abort (q : DispatchQueue Trigger (Nat × Nat)) (x : Nat × Nat) :
    (q.abort x).entries = q.entries ∧
      (q.abort x).nextOrder = q.nextOrder ∧ (q.abort x).accepted = q.accepted := by
  cases q.deals_abort x with
  | rest he hn => exact ⟨he, hn, q.accepted_abort x⟩

theorem setWorker_setWorker (E : Engine) (c w : Nat) (s s' : WorkerState) :
    (E.setWorker c w s).setWorker c w s' = E.setWorker c w s' := by
  unfold setWorker
  simp only [List.modify_modify_eq, Function.comp_def, List.set_set]

theorem runAt_concat {x : Run} (h : E'.runs = E.runs ++ [x]) (r : Nat) :
    E'.runAt r = if r = E.runs.length then x else E.runAt r := by
  rw [runAt, h]
  exact Core.getD_concat _ _ _ _

/-- Nobody's run changes, and nobody begins or ends one. -/
theorem Posts.manned {s : WorkerState} (hp : E.Posts E' c w s) (hr : E'.runs = E.runs)
    (hs : ∀ r, s = .busy r ↔ E.workerAt c w = .busy r) (h : E.Manned) : E'.Manned := by
  intro c' w' r
  have hrun : E'.runAt r = E.runAt r := by rw [runAt, hr, runAt]
  rw [hp.worker, hrun, ← h c' w' r]
  split
  · next hcw =>
    obtain ⟨rfl, rfl⟩ := hcw
    exact hs r
  · exact Iff.rfl

/-- A worker that was free is busy with the run that begins. -/
theorem Posts.manned_spawn {n : Nat} {t : Trigger} (hp : E.Posts E' c w (.busy E.runs.length))
    (hr : E'.runs = E.runs ++ [{ rule := n, trigger := t, admission := .wait
                                 client := .worker c w }])
    (hf : ∀ r, E.workerAt c w ≠ .busy r) (h : E.Manned) : E'.Manned := by
  intro c' w' r
  rw [hp.worker, runAt_concat hr]
  by_cases hlast : r = E.runs.length
  · subst hlast
    rw [if_pos rfl]
    split
    · next hcw =>
      obtain ⟨rfl, rfl⟩ := hcw
      exact ⟨fun _ => ⟨rfl, rfl⟩, fun _ => rfl⟩
    · next hcw =>
      refine ⟨fun hb => ?_, fun hx => absurd hx.1 fun hc => hcw (by simpa using hc)⟩
      exact absurd (lt_of_worker ((h c' w' _).mp hb).1) (Nat.lt_irrefl _)
  · rw [if_neg hlast, ← h c' w' r]
    split
    · next hcw =>
      obtain ⟨rfl, rfl⟩ := hcw
      exact ⟨fun hb => absurd (WorkerState.busy.inj hb).symm hlast, fun hb => absurd hb (hf r)⟩
    · exact Iff.rfl

/-- A worker is set to a state, and the queue changed accordingly. -/
theorem posts_of_aside {q : DispatchQueue Trigger (Nat × Nat)} {rs : List Run} {s : WorkerState}
    (hw : w < (E.crewAt c).workers.length)
    (ha : Aside (({ E with ready := E.ready.erase (.worker c w), queue := q, runs := rs }
      : Engine).setWorker c w s) E')
    (hl : ∀ p, p ∈ q.line ↔ p ∈ E.queue.line ∧ p ≠ (c, w) ∨ p = (c, w) ∧ s = .idle)
    (hnd : q.line.Nodup) (hf : q.Fed)
    (hn : q.nextOrder = E.queue.nextOrder ∧ q.accepted = E.queue.accepted)
    (hk : ∀ c w, (c, w) ∈ q.woken → Job.worker c w ∈ E'.ready) : E.Posts E' c w s where
  settings := ha.settings
  running := ha.running
  stops := ha.stops
  crews := (congrArg List.length ha.crews).trans (List.length_modify _ _ _)
  shutdown := fun c' => by
    have h := (E.crewAt_setWorker c w s c').1
    rw [crewAt, ha.crews]
    exact h
  size := fun c' => by
    have h := (E.crewAt_setWorker c w s c').2
    rw [crewAt, ha.crews]
    exact h
  worker := fun c' w' => by
    have h := workerAt_setWorker hw s c' w'
    rw [workerAt, crewAt, ha.crews]
    exact h
  ready := fun c' w' hm hne => ha.ready c' w'
    ((List.mem_erase_of_ne fun hj => hne (by simpa using hj.symm)).mpr hm)
  line := fun p => by rw [ha.queue]; exact hl p
  nodup := by rw [ha.queue]; exact hnd
  fed := by rw [ha.queue]; exact hf
  woken := fun c' w' hm => hk c' w' (by rw [ha.queue] at hm; exact hm)
  nextOrder := by rw [ha.queue]; exact hn.1
  accepted := by rw [ha.queue]; exact hn.2

/-! ## The turn of a worker -/

/-- The line when a worker has gone from it. -/
theorem mem_line_gone {q q' : DispatchQueue Trigger (Nat × Nat)} {s : WorkerState}
    (hnd : q.line.Nodup) (hl : q'.line = q.line.erase (c, w)) (hs : s ≠ .idle) (p : Nat × Nat) :
    p ∈ q'.line ↔ p ∈ q.line ∧ p ≠ (c, w) ∨ p = (c, w) ∧ s = .idle := by
  rw [hl, hnd.mem_erase_iff]
  exact ⟨fun h => .inl h.symm, fun h => h.elim And.symm fun h => absurd h.2 hs⟩

/-- The line when a worker has come last. -/
theorem mem_line_last {q q' : DispatchQueue Trigger (Nat × Nat)} (hnd : q.line.Nodup)
    (hl : q'.line = q.line.erase (c, w) ++ [(c, w)]) (p : Nat × Nat) :
    p ∈ q'.line ↔ p ∈ q.line ∧ p ≠ (c, w) ∨ p = (c, w) ∧ WorkerState.idle = .idle := by
  rw [hl, List.mem_append, List.mem_singleton, hnd.mem_erase_iff]
  exact ⟨fun h => h.elim (fun h => .inl h.symm) fun h => .inr ⟨h, rfl⟩,
    fun h => h.elim (fun h => .inl h.symm) fun h => .inr h.1⟩

theorem nodup_line_last {q q' : DispatchQueue Trigger (Nat × Nat)} (hnd : q.line.Nodup)
    (hl : q'.line = q.line.erase (c, w) ++ [(c, w)]) : q'.line.Nodup := by
  rw [hl, List.nodup_append]
  refine ⟨hnd.erase _, List.nodup_singleton _, fun a ha b hb => ?_⟩
  rw [List.mem_singleton.mp hb]
  exact (hnd.mem_erase_iff.mp ha).1

theorem not_busy (hf : E.workerAt c w = .looking ∨ E.workerAt c w = .idle) (r : Nat) :
    E.workerAt c w ≠ .busy r := by
  rcases hf with hf | hf <;> rw [hf] <;> exact WorkerState.noConfusion

theorem not_stopped (hf : E.workerAt c w = .looking ∨ E.workerAt c w = .idle) :
    E.workerAt c w ≠ .stopped := by
  rcases hf with hf | hf <;> rw [hf] <;> exact WorkerState.noConfusion

theorem lt_of_free (hf : E.workerAt c w = .looking ∨ E.workerAt c w = .idle) :
    w < (E.crewAt c).workers.length := lt_of_workerAt (not_stopped hf)

/-- Whoever was handed an entry is busy, or looks again. -/
theorem Hands.not_idle (h : E.Hands E' c w e) : E'.workerAt c w ≠ .idle := by
  intro hidle
  cases hn : E.registry.number? e.payload.rule with
  | none =>
    rw [(h.drop hn).2.2.1] at hidle
    cases hidle
  | some n =>
    rw [(h.run n hn).2.2] at hidle
    cases hidle

/-- The turn of a worker has come. -/
def called (E : Engine) (c w : Nat) : Engine := { E with ready := E.ready.erase (.worker c w) }

namespace Staffed

/-- Those that remain woken still have a turn to come. -/
theorem woken_erase (h : E.Staffed) {rs : List Run}
    {q : DispatchQueue Trigger (Nat × Nat)} (hq : q.woken = E.queue.woken.erase (c, w))
    {s : WorkerState}
    (ha : Aside (({ E with ready := E.ready.erase (.worker c w), queue := q, runs := rs }
      : Engine).setWorker c w s) E') {c' w' : Nat} (hm : (c', w') ∈ q.woken) :
    Job.worker c' w' ∈ E'.ready := by
  have hnd : E.queue.woken.Nodup := (List.nodup_append.mp h.nodup).1
  rw [hq, hnd.mem_erase_iff] at hm
  refine ha.ready c' w' ((List.mem_erase_of_ne fun hj => hm.1 ?_).mpr (h.woken c' w' hm.2))
  simpa using hj

/-- What a worker was served is dropped if no instance is in force. -/
theorem hands_drop (h : E.Staffed) {q : DispatchQueue Trigger (Nat × Nat)}
    (hL : Looks E.queue (c, w) (q, some e.payload)) (hnext : least? E.queue.entries = some e)
    (he : q.entries = E.queue.entries.filter (·.order != e.order))
    (hf : E.workerAt c w = .looking ∨ E.workerAt c w = .idle)
    (hw : w < (E.crewAt c).workers.length) (hn : E.registry.number? e.payload.rule = none) :
    E.Hands ((E.called c w).served c w (q, some e.payload)) c w e ∧
      E.Posts ((E.called c w).served c w (q, some e.payload)) c w
        (((E.called c w).served c w (q, some e.payload)).workerAt c w) := by
  generalize hE : (E.called c w).served c w (q, some e.payload) = E'
  have hE' : E' = ((({ E.called c w with queue := q }).notice
      (.dispatchUnknown w e.payload.rule)).setWorker c w .looking).goOn (.worker c w) := by
    rw [← hE]
    unfold served assign
    simp only [called, hn]
  have ha : Aside (({ E with ready := E.ready.erase (.worker c w), queue := q, runs := E.runs }
      : Engine).setWorker c w .looking) E' := by
    rw [hE']
    exact (aside_setWorker (aside_say _ _) c w _).trans (aside_goOn _ _)
  have hp : E.Posts E' c w .looking :=
    posts_of_aside hw ha (mem_line_gone h.nodup hL.line WorkerState.noConfusion)
      (hL.line ▸ h.nodup.erase _) hL.fed hL.kept fun c' w' hm => h.woken_erase hL.woken ha hm
  have hlook : E'.workerAt c w = .looking := (hp.worker c w).trans (if_pos ⟨rfl, rfl⟩)
  refine ⟨⟨hf, hnext, ?_, fun n hn' => ?_, fun _ => ⟨ha.runs, ?_, hlook, ?_⟩⟩, hlook ▸ hp⟩
  · rw [ha.queue]
    exact he
  · rw [hn] at hn'
    cases hn'
  · rw [hE']
    rfl
  · rw [hE']
    rfl

/-- What a worker was served is handed to a run of the instance in force. -/
theorem hands_run (h : E.Staffed) {q : DispatchQueue Trigger (Nat × Nat)}
    (hL : Looks E.queue (c, w) (q, some e.payload)) (hnext : least? E.queue.entries = some e)
    (he : q.entries = E.queue.entries.filter (·.order != e.order))
    (hf : E.workerAt c w = .looking ∨ E.workerAt c w = .idle)
    (hw : w < (E.crewAt c).workers.length) {n : Nat}
    (hn : E.registry.number? e.payload.rule = some n) :
    E.Hands ((E.called c w).served c w (q, some e.payload)) c w e ∧
      E.Posts ((E.called c w).served c w (q, some e.payload)) c w
        (((E.called c w).served c w (q, some e.payload)).workerAt c w) := by
  generalize hE : (E.called c w).served c w (q, some e.payload) = E'
  have hE' : E' = (((({ E.called c w with queue := q }).spawn n e.payload .wait
      (.worker c w)).1).setWorker c w (.busy E.runs.length)).goOn (.run E.runs.length) := by
    rw [← hE]
    unfold served assign
    simp only [called, hn]
    rfl
  have ha : Aside (({ E with
      ready := E.ready.erase (.worker c w), queue := q
      runs := E.runs ++ [{ rule := n, trigger := e.payload, admission := .wait
                           client := .worker c w }] } : Engine).setWorker c w (.busy E.runs.length))
      E' := by
    rw [hE']
    exact aside_goOn _ _
  have hp : E.Posts E' c w (.busy E.runs.length) :=
    posts_of_aside hw ha (mem_line_gone h.nodup hL.line WorkerState.noConfusion)
      (hL.line ▸ h.nodup.erase _) hL.fed hL.kept fun c' w' hm => h.woken_erase hL.woken ha hm
  have hbusy : E'.workerAt c w = .busy E.runs.length := (hp.worker c w).trans (if_pos ⟨rfl, rfl⟩)
  refine ⟨⟨hf, hnext, ?_, fun m hm => ?_, fun hn' => ?_⟩, hbusy ▸ hp⟩
  · rw [ha.queue]
    exact he
  · obtain rfl : n = m := Option.some.inj (hn.symm.trans hm)
    refine ⟨ha.runs, ?_, hbusy⟩
    rw [hE']
    rfl
  · rw [hn] at hn'
    cases hn'

theorem hands_served (h : E.Staffed) {q : DispatchQueue Trigger (Nat × Nat)} {t : Trigger}
    (hL : Looks E.queue (c, w) (q, some t))
    (hf : E.workerAt c w = .looking ∨ E.workerAt c w = .idle) :
    ∃ e, E.Hands ((E.called c w).served c w (q, some t)) c w e ∧
      E.Posts ((E.called c w).served c w (q, some t)) c w
        (((E.called c w).served c w (q, some t)).workerAt c w) := by
  have hw := lt_of_free hf
  obtain ⟨e, hnext, rfl, he⟩ := hL.served t rfl
  cases hn : E.registry.number? e.payload.rule with
  | none => exact ⟨e, h.hands_drop hL hnext he hf hw hn⟩
  | some n => exact ⟨e, h.hands_run hL hnext he hf hw hn⟩

/-- A worker that looks is handed an entry, or waits. -/
theorem works_served (h : E.Staffed)
    {r : DispatchQueue Trigger (Nat × Nat) × Option Trigger} (hL : Looks E.queue (c, w) r)
    (hf : E.workerAt c w = .looking ∨ E.workerAt c w = .idle) :
    E.Works ((E.called c w).served c w r) c w := by
  obtain ⟨q, got⟩ := r
  cases got with
  | none =>
    have ha : Aside (({ E with ready := E.ready.erase (.worker c w), queue := q, runs := E.runs }
      : Engine).setWorker c w .idle) ((E.called c w).served c w (q, none)) := .refl _
    exact .waits hf (hL.waits rfl) rfl <| posts_of_aside (lt_of_free hf) ha
      (mem_line_last h.nodup hL.line) (nodup_line_last h.nodup hL.line) hL.fed hL.kept
      fun c' w' hm => h.woken_erase hL.woken ha hm
  | some t =>
    obtain ⟨e, hh, hp⟩ := h.hands_served hL hf
    exact .hands hh hp

theorem works_leaves (h : E.Staffed) {q : DispatchQueue Trigger (Nat × Nat)}
    (hf : E.workerAt c w = .looking ∨ E.workerAt c w = .idle) (hd : (E.crewAt c).shutdown = true)
    (he : q.entries = E.queue.entries)
    (hn : q.nextOrder = E.queue.nextOrder ∧ q.accepted = E.queue.accepted)
    (hl : q.line = E.queue.line.erase (c, w)) (hfed : q.Fed)
    (ha : Aside (({ E with ready := E.ready.erase (.worker c w), queue := q, runs := E.runs }
      : Engine).setWorker c w .stopped) E')
    (hk : ∀ c w, (c, w) ∈ q.woken → Job.worker c w ∈ E'.ready) : E.Works E' c w := by
  refine .leaves hf hd ?_ ha.runs <| posts_of_aside (lt_of_free hf) ha
    (mem_line_gone h.nodup hl WorkerState.noConfusion) (hl ▸ h.nodup.erase _) hfed hn hk
  rw [ha.queue]
  exact he

/-- Only a worker that waits stands in the line. -/
theorem not_lined (h : E.Staffed) (hs : E.workerAt c w ≠ .idle) : (c, w) ∉ E.queue.line :=
  fun hm => hs ((h.idle c w).mpr hm)

theorem not_woken (h : E.Staffed) (hs : E.workerAt c w ≠ .idle) : (c, w) ∉ E.queue.woken :=
  fun hm => h.not_lined hs (List.mem_append_left _ hm)

/-- A turn of a worker that has not been woken and is not about to look is lost. -/
theorem works_rests (h : E.Staffed) (hl : E.workerAt c w ≠ .looking)
    (hk : (c, w) ∉ E.queue.woken) : E.Works (E.called c w) c w := by
  refine .rests hl rfl rfl ⟨rfl, rfl, rfl, rfl, fun _ => rfl, fun _ => rfl, fun c' w' => ?_,
    fun c' w' hm hne => ?_, fun p => ?_, h.nodup, h.fed, fun c' w' hm => ?_, rfl, rfl⟩
  · split
    · next hcw =>
      obtain ⟨rfl, rfl⟩ := hcw
      rfl
    · rfl
  · exact (List.mem_erase_of_ne fun hj => hne (by simpa using hj.symm)).mpr hm
  · by_cases hp : p = (c, w)
    · subst hp
      exact ⟨fun hm => .inr ⟨rfl, (h.idle c w).mpr hm⟩,
        fun hm => hm.elim (fun hm => absurd rfl hm.2) fun hm => (h.idle c w).mp hm.2⟩
    · exact ⟨fun hm => .inl ⟨hm, hp⟩, fun hm => hm.elim And.left fun hm => absurd hm.1 hp⟩
  · refine (List.mem_erase_of_ne fun hj => ?_).mpr (h.woken c' w' hm)
    obtain ⟨rfl, rfl⟩ : c' = c ∧ w' = w := by simpa using hj
    exact hk hm

/-- A worker that looked and found its crew told to stop leaves. -/
theorem works_looked (h : E.Staffed) (hlook : E.workerAt c w = .looking)
    (hd : (E.crewAt c).shutdown = true) : E.Works ((E.called c w).stopWorker c w) c w := by
  have hidle : E.workerAt c w ≠ .idle := by rw [hlook]; exact WorkerState.noConfusion
  have hline : (c, w) ∉ E.queue.line := h.not_lined hidle
  have ha : Aside (({ E with
      ready := E.ready.erase (.worker c w), queue := E.queue, runs := E.runs }
      : Engine).setWorker c w .stopped) ((E.called c w).stopWorker c w) :=
    aside_stopWorker _ c w
  refine h.works_leaves (.inl hlook) hd rfl ⟨rfl, rfl⟩ (List.erase_of_not_mem hline).symm h.fed
    ha ?_
  intro c' w' hm
  have hwoken : E.queue.woken = E.queue.woken.erase (c, w) :=
    (List.erase_of_not_mem (h.not_woken hidle)).symm
  exact h.woken_erase hwoken ha hm

/-- A worker that waits and finds its crew told to stop leaves, passing its waking on. -/
theorem works_gone (h : E.Staffed) (hidle : E.workerAt c w = .idle)
    (hd : (E.crewAt c).shutdown = true) : E.Works ((E.called c w).leave c w) c w := by
  obtain ⟨he, hn⟩ := entries_abort E.queue (c, w)
  exact h.works_leaves (.inr hidle) hd he hn (E.queue.line_abort (c, w)) (h.fed.abort (c, w))
    ((E.called c w).aside_leave c w) fun _ _ hm => mem_ready_leave (E := E.called c w) hm

/-- A worker that was woken for nothing, and finds its crew told to stop, leaves. -/
theorem works_woken_gone (h : E.Staffed) {q : DispatchQueue Trigger (Nat × Nat)}
    (hL : Looks E.queue (c, w) (q, none)) (hidle : E.workerAt c w = .idle)
    (hd : (E.crewAt c).shutdown = true) :
    E.Works ((({ E.called c w with queue := q }).setWorker c w .idle).leave c w) c w := by
  obtain ⟨he, hn⟩ := entries_abort q (c, w)
  have hout : (c, w) ∉ E.queue.line.erase (c, w) := fun hm => (h.nodup.mem_erase_iff.mp hm).1 rfl
  have hline : (q.abort (c, w)).line = E.queue.line.erase (c, w) := by
    have hl : q.line = E.queue.line.erase (c, w) ++ [(c, w)] := hL.line
    rw [q.line_abort, hl, List.erase_append_right _ hout, List.erase_cons_head, List.append_nil]
  have ha := aside_leave (({ E.called c w with queue := q }).setWorker c w .idle) c w
  have hset : ({ ({ E.called c w with queue := q }).setWorker c w .idle with
      queue := q.abort (c, w) } : Engine).setWorker c w .stopped
      = ({ E.called c w with queue := q.abort (c, w) }).setWorker c w .stopped :=
    setWorker_setWorker { E.called c w with queue := q.abort (c, w) } c w .idle .stopped
  exact h.works_leaves (.inr hidle) hd (he.trans (hL.waits rfl))
    ⟨hn.1.trans hL.kept.1, hn.2.trans hL.kept.2⟩ hline (hL.fed.abort (c, w)) (hset ▸ ha)
    fun _ _ hm => mem_ready_leave hm

/-- The turn of a worker is one of these. -/
theorem works_performWorker (h : E.Staffed) (c w : Nat) (second : Bool) :
    E.Works ((E.called c w).performWorker c w second) c w := by
  unfold performWorker
  dsimp only
  cases hs : (E.called c w).workerAt c w with
  | busy r =>
    have hs' : E.workerAt c w = .busy r := hs
    exact h.works_rests (by rw [hs']; exact WorkerState.noConfusion)
      (h.not_woken (by rw [hs']; exact WorkerState.noConfusion))
  | stopped =>
    have hs' : E.workerAt c w = .stopped := hs
    exact h.works_rests (by rw [hs']; exact WorkerState.noConfusion)
      (h.not_woken (by rw [hs']; exact WorkerState.noConfusion))
  | looking =>
    have hs' : E.workerAt c w = .looking := hs
    dsimp only
    split
    · next hd => exact h.works_looked hs' hd
    · have hline : (c, w) ∉ E.queue.line :=
        h.not_lined (by rw [hs']; exact WorkerState.noConfusion)
      exact h.works_served (looks_take h.fed hline) (.inl hs')
  | idle =>
    have hs' : E.workerAt c w = .idle := hs
    dsimp only
    split
    · next hk =>
      have hwoken : (c, w) ∈ E.queue.woken :=
        List.contains_iff_mem.mp ((Bool.and_eq_true _ _).mp hk).1
      have hL : Looks E.queue (c, w) ((E.called c w).queue.resume (c, w)) :=
        looks_resume h.fed hwoken
      split
      -- it was not served, and leaves
      · next hleave =>
        have hd : (E.crewAt c).shutdown = true := ((Bool.and_eq_true _ _).mp hleave).1
        have hidle := eq_of_beq ((Bool.and_eq_true _ _).mp hleave).2
        revert hL hidle
        generalize (E.called c w).queue.resume (c, w) = r
        intro hL hidle
        obtain ⟨q, got⟩ := r
        cases got with
        | none => exact h.works_woken_gone hL hs' hd
        | some t =>
          obtain ⟨e, hh, -⟩ := h.hands_served hL (.inr hs')
          exact absurd hidle hh.not_idle
      · exact h.works_served hL (.inr hs')
    · next hk =>
      split
      · next hd => exact h.works_gone hs' hd
      · next hd =>
        refine h.works_rests (by rw [hs']; exact WorkerState.noConfusion) fun hm => hk ?_
        have hc : (E.called c w).queue.woken.contains (c, w) = true := List.contains_iff_mem.mpr hm
        rw [hc, (Bool.not_eq_true _).mp hd]
        rfl

end Staffed

/-! ## Dispatches -/

theorem Enters.before {E₀ : Engine} (h : E.Enters E' e) (ha : E₀.Aside E) (hn : E.now = E₀.now)
    (hr : E.registry = E₀.registry) : E₀.Enters E' e where
  registered := hr ▸ h.registered
  fresh := by rw [← ha.queue, ← hn]; exact h.fresh
  order := ha.queue ▸ h.order
  queue := by rw [← ha.queue, ← hn]; exact h.queue
  aside := ⟨rfl, h.aside.settings.trans ha.settings, h.aside.running.trans ha.running,
    h.aside.stops.trans ha.stops, h.aside.crews.trans ha.crews, h.aside.runs.trans ha.runs,
    fun c w hm => h.aside.ready c w (ha.ready c w hm)⟩
  woken := h.woken

theorem Enters.after (h : E.Enters E' e) (ha : E'.Aside E'') : E.Enters E'' e where
  registered := h.registered
  fresh := h.fresh
  order := h.order
  queue := ha.queue.trans h.queue
  aside := ⟨rfl, ha.settings.trans h.aside.settings, ha.running.trans h.aside.running,
    ha.stops.trans h.aside.stops, ha.crews.trans h.aside.crews, ha.runs.trans h.aside.runs,
    fun c w hm => ha.ready c w (h.aside.ready c w hm)⟩
  woken := fun c w hm => ha.ready c w (h.woken c w (ha.queue ▸ hm))

theorem Enters.offer (h : E.Enters E' e) :
    E'.queue = (E.queue.offer E.now e.payload e.priority).1 := by
  simp only [DispatchQueue.offer, h.fresh, Bool.false_eq_true, if_false]
  exact h.queue

/-- A dispatch that is accepted enters the queue, and one that is not leaves it alone. -/
theorem dispatch_cases (E : Engine) (t : Trigger) :
    (∃ e, e.payload = t ∧ (E.dispatch t).2 = .ok true ∧ E.Enters (E.dispatch t).1 e) ∨
      (E.dispatch t).2 ≠ .ok true ∧ E.Aside (E.dispatch t).1 := by
  unfold dispatch
  cases hi : E.registry.find? t.rule with
  | none => exact .inr ⟨nofun, .refl E⟩
  | some i =>
    dsimp only
    cases hs : E.queue.suppressed E.now t with
    | true =>
      refine .inr ?_
      simp only [DispatchQueue.offer, hs, if_true]
      exact ⟨nofun, (aside_say _ _).trans (aside_say _ _)⟩
    | false =>
      refine .inl ⟨⟨t, i.definition.priority.toInt, E.queue.nextOrder⟩, rfl, ?_⟩
      simp only [DispatchQueue.offer, hs, Bool.false_eq_true, if_false]
      have ha := aside_wakeWorkers { E with
        queue := E.queue.accept E.now t i.definition.priority.toInt }
      refine ⟨trivial, ⟨i, hi, rfl⟩, hs, rfl, ha.queue, ?_, fun c w hm => ?_⟩
      · exact ⟨rfl, ha.settings, ha.running, ha.stops, ha.crews, ha.runs, ha.ready⟩
      · rw [ha.queue] at hm
        exact mem_ready_wakeWorkers hm

/-- The workers are left alone, but an entry may come into the queue. -/
def Tends (E E' : Engine) : Prop := E.Minds E' ∨ ∃ e, E.Enters E' e

theorem tends_dispatch (E : Engine) (t : Trigger) : E.Tends (E.dispatch t).1 := by
  rcases E.dispatch_cases t with ⟨e, -, -, he⟩ | ⟨-, ha⟩
  · exact .inr ⟨e, he⟩
  · exact .inl (minds_aside ha)

theorem Tends.before {E₀ : Engine} (h : E.Tends E') (ha : E₀.Aside E) (hn : E.now = E₀.now)
    (hr : E.registry = E₀.registry) : E₀.Tends E' :=
  h.imp (minds_aside ha).trans fun he => ⟨_, he.choose_spec.before ha hn hr⟩

theorem Tends.after (h : E.Tends E') (ha : E'.Aside E'') : E.Tends E'' :=
  h.imp (·.trans (minds_aside ha)) fun he => ⟨_, he.choose_spec.after ha⟩

theorem Tends.labour (h : E.Tends E') (hm : E.Manned) : E.Labour E' :=
  h.elim (fun h => .attends (h hm)) fun h => .enters h.choose_spec

section Scripts

open Script (Process Reply Fault Value)

variable (E)

theorem aside_answerScript (n : Nat) (cancels : Bool) (a : Except String Json)
    (next : Reply → Process (Except Fault Value)) : E.Aside (E.answerScript n cancels a next) :=
  ⟨rfl, rfl, rfl, rfl, rfl, rfl, fun _ _ h => mem_ready_goOn _ h⟩

theorem tends_obey (node : String) (o : Order) : E.Tends (E.obey node o).1 := by
  cases o with
  | deregister rule => exact .inl (E.minds_deregister rule)
  | pause rule => exact .inl (E.minds_setPaused rule true)
  | resume rule => exact .inl (E.minds_setPaused rule false)
  | register rule condition action => exact .inl (E.minds_define _)
  | dispatch rule name value => exact E.tends_dispatch _
  | cancel => exact .inl (.refl E)
  | unknown word => exact .inl (.refl E)

theorem tends_invoke (n : Nat) (command : String) (args : List Json)
    (next : Reply → Process (Except Fault Value)) : E.Tends (E.invoke n command args next) := by
  unfold invoke
  dsimp only
  split
  · exact .inl (E.minds_resumeScript n _)
  · next commands device calls _ =>
    have ha : E.Aside ({ E with commands }.say (.called command
        (E.ruleOf (E.evaluationAt n).run).id (E.runAt (E.evaluationAt n).run).trigger.node args)) :=
      ⟨rfl, rfl, rfl, rfl, rfl, rfl, fun _ _ => id⟩
    split
    · split
      · exact .inl ((minds_aside ha).trans (minds_answerScript _ _ _ _ _))
      · exact .inl ((minds_aside ha).trans (minds_concludeScript _ _ _))
    · exact .inl ((minds_aside ha).trans (minds_reachGate _ _ _ _ _))
    · exact .inl ((minds_aside ha).trans (minds_fire _ _ _ _))
    · exact ((tends_obey _ _ _).after (aside_answerScript _ n _ _ next)).before ha rfl rfl

theorem tends_performScript (n : Nat) : E.Tends (E.performScript n) := by
  unfold performScript
  dsimp only
  split
  · exact .inl (E.minds_concludeScript n _)
  · exact .inl (E.minds_concludeScript n _)
  · exact .inl ((E.minds_say _).trans (minds_resumeScript _ n _))
  · split
    · exact .inl (E.minds_resumeScript n _)
    · exact E.tends_invoke n _ _ _
  · exact .inl (.refl E)

end Scripts

/-! ## Start and stop -/

theorem hires_hire (h : E.running = none) : E.Hires E.hire := by
  have ha : Aside { E with
      crews := E.crews ++ [{ workers := List.replicate E.settings.dispatchWorkers.toNat .looking
                             tick := some (E.now + E.settings.housekeepingInterval.toNat) }]
      running := some E.crews.length } E.hire :=
    (aside_say _ _).trans (aside_foldl (fun E w => E.aside_wake _) _ _)
  exact ⟨h, ha.queue, ha.settings, ha.running, ha.stops, ha.runs, ⟨_, ha.crews⟩, ha.ready,
    fun w hw => mem_ready_foldl (f := Job.worker E.crews.length) rfl (List.mem_range.mpr hw)⟩

theorem labour_startWork (hm : E.Manned) : E.Labour E.startWork.1 := by
  unfold startWork
  split
  · exact .attends (.refl hm)
  · next h => exact .hires (hires_hire h)

theorem dismisses_dismiss (h : E.running = some c) {task : Nat} {E₁ : Engine} (k : Nat)
    (hE : E₁ = { E with tasks := task, stops := E.stops ++ [{ crew := c, task }] }) :
    E.Dismisses ((E₁.dismiss c).wake (.stop k)) c := by
  have ha : Aside { E₁ with
      running := none
      crews := E₁.crews.modify c fun x => { x with shutdown := true } }
      ((E₁.dismiss c).wake (.stop k)) :=
    (aside_foldl (fun E w => E.aside_wake _) _ _).trans (aside_wake _ _)
  subst hE
  exact ⟨h, ha.queue, ha.settings, ha.running, ⟨task, ha.stops⟩, ha.runs, ha.crews, ha.ready⟩

theorem labour_stopWork (hm : E.Manned) : E.Labour E.stopWork.1 := by
  unfold stopWork startTask
  dsimp only
  split
  · exact .attends (minds_aside ⟨rfl, rfl, rfl, rfl, rfl, rfl, fun _ _ => id⟩ hm)
  · next hr => exact .dismisses (dismisses_dismiss hr _ rfl)

/-- The turn of one who waits for a crew to stop. -/
theorem labour_performStop (hm : E.Manned) (k : Nat) :
    E.Labour (({ E with ready := E.ready.erase (.stop k) }).performStop k) := by
  have ha : E.Aside { E with ready := E.ready.erase (.stop k) } :=
    aside_erase fun _ _ => Job.noConfusion
  unfold performStop
  split
  · exact .attends (minds_aside ha hm)
  · next s hs =>
    split
    · exact .attends (minds_aside ha hm)
    · next hall =>
      have hstopped : ∀ x ∈ (E.crewAt s.crew).workers, x = .stopped := by
        simp only [Bool.or_eq_true, Bool.not_eq_true', not_or, Bool.not_eq_false] at hall
        exact fun x hx => eq_of_beq (List.all_eq_true.mp hall.2 x hx)
      refine .answers (s := s) ⟨List.mem_of_getElem? hs, fun w => ?_, rfl, rfl, rfl, ⟨k, hs, rfl⟩,
        rfl, rfl, ha.ready⟩
      unfold workerAt
      rw [List.getD_eq_getElem?_getD]
      cases hx : (E.crewAt s.crew).workers[w]? with
      | none => rfl
      | some x => exact hstopped x (List.mem_of_getElem? hx)

/-! ## Steps -/

theorem labour_turn (h : E.Staffed) (j : Job) (second : Bool) : E.Labour (E.turn j second) := by
  have hm := h.manned
  unfold turn
  split
  · cases j with
    | run r =>
      exact .attends (((minds_aside (aside_erase fun _ _ => Job.noConfusion)).trans
        (minds_performRun _ r second)) hm)
    | script n =>
      exact ((tends_performScript _ n).before (aside_erase fun _ _ => Job.noConfusion) rfl
        rfl).labour hm
    | write k =>
      exact .attends (((minds_aside (aside_erase fun _ _ => Job.noConfusion)).trans
        (minds_performWrite _ k)) hm)
    | worker c w => exact .works (h.works_performWorker c w second)
    | stop k => exact labour_performStop hm k
  · exact .attends (.refl hm)

theorem labour_serve (hm : E.Manned) (q : Request) : E.Labour (E.serve q) := by
  cases q with
  | define d => exact .attends (E.minds_define d hm)
  | deregister id => exact .attends (E.minds_deregister id hm)
  | observe node id => exact .attends (E.minds_observe node id hm)
  | setPaused id paused => exact .attends (E.minds_setPaused id paused hm)
  | dispatch t => exact (E.tends_dispatch t).labour hm
  | sweep => exact .attends (E.minds_sweep hm)
  | notify n t a => exact .attends (E.minds_notify n t a hm)
  | write a node name value => exact .attends (E.minds_write a node name value hm)
  | abandon task => exact .attends (E.minds_abandonRunOf _ hm)
  | abandonWrite k => exact .attends (E.minds_abandonWrite k hm)
  | guard n name => exact .attends (E.minds_guard n name hm)
  | unguard name => exact .attends (E.minds_unguard name hm)
  | clearFacts n => exact .attends (E.minds_modifyInstance n _ hm)
  | openGate gate => exact .attends (E.minds_openGate gate hm)
  | start => exact labour_startWork hm
  | stop => exact labour_stopWork hm
  | _ => exact .attends (minds_aside ⟨rfl, rfl, rfl, rfl, rfl, rfl, fun _ _ => id⟩ hm)

theorem labour_pass (hm : E.Manned) (t : Nat) : E.Labour { E with now := t } :=
  .attends (minds_aside ⟨rfl, rfl, rfl, rfl, rfl, rfl, fun _ _ => id⟩ hm)

/-- **A step comes to one of these.** -/
theorem Step.labour (hs : Step E E') (h : E.Staffed) : E.Labour E' := by
  cases hs with
  | turn j second => exact labour_turn h j second
  | strike ht => exact .attends (E.minds_strike _ h.manned)
  | pass ht => exact labour_pass h.manned _
  | request hq => exact labour_serve h.manned _

end Engine

end ReactiveRules
