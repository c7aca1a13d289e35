import ReactiveRules.Proofs.Engine.Reach
import ReactiveRules.Proofs.Likeness.Turns

/-!
# `Proofs/Likeness/Whole.lean` — engines that go the same way whatever is done to them

`Parity` is a likeness that extends to whatever else there is in an engine: its crews, its writes,
its queue, and the requests from outside. **Engines that are related by a parity stay so in every
turn and whatever they are asked** (`Like.turn`, `Like.serve`), and as time passes (`Like.strike`).
Of a dispatch it has to be known apart that it is answered alike.
-/

set_option autoImplicit false

namespace ReactiveRules

namespace Engine

/-- The engine but for its queue, and for what listeners and facts leave behind. -/
def frame (E : Engine) : Engine :=
  { E.face with
    queue := { window := 0, woken := E.queue.woken }
    registry := { E.face.registry with observed := E.registry.observed, host := E.registry.host }
    crews := E.crews, running := E.running, stops := E.stops, guards := E.guards
    writes := E.writes, ready := E.ready, tasks := E.tasks, finished := E.finished }

/-- The engine with its crews, its writes and its tasks taken over from another. -/
def install (E G : Engine) : Engine :=
  { E with
    registry := { E.registry with observed := G.registry.observed, host := G.registry.host }
    crews := G.crews, running := G.running, stops := G.stops, guards := G.guards
    writes := G.writes, ready := G.ready, tasks := G.tasks, finished := G.finished }

end Engine

open Engine in
/-- A relation between engines that nothing that is done to both can break. -/
structure Parity extends Likeness where
  frame : ∀ {E E' : Engine}, rel E E' → E.frame = E'.frame
  admission : ∀ {E E' : Engine}, rel E E' → ∀ r,
    (E'.runAt r).admission = (E.runAt r).admission
  suspended : ∀ {E E' : Engine}, rel E E' → ∀ c,
    E'.runs.findIdx? (isSuspended · c) = E.runs.findIdx? (isSuspended · c)
  install : ∀ {E E' : Engine}, rel E E' → ∀ G, rel (E.install G) (E'.install G)
  setNow : ∀ {E E' : Engine}, rel E E' → ∀ {t}, E.now ≤ t →
    rel { E with now := t } { E' with now := t }
  take : ∀ {E E' : Engine}, rel E E' → ∀ w,
    Agrees rel (E.lines (E.queue.take w)) (E'.lines (E'.queue.take w))
  resume : ∀ {E E' : Engine}, rel E E' → ∀ w,
    Agrees rel (E.lines (E.queue.resume w)) (E'.lines (E'.queue.resume w))
  abort : ∀ {E E' : Engine}, rel E E' → ∀ w,
    rel { E with queue := E.queue.abort w } { E' with queue := E'.queue.abort w }
  keepHouse : ∀ {E E' : Engine}, rel E E' → rel E.keepHouse E'.keepHouse
  sweep : ∀ {E E' : Engine}, rel E E' → rel E.sweep.1 E'.sweep.1
  observe : ∀ {E E' : Engine}, rel E E' → ∀ node id,
    Agrees rel (E.enrols (E.registry.observe node id)) (E'.enrols (E'.registry.observe node id))
  add : ∀ {E E' : Engine}, rel E E' → ∀ d,
    Agrees rel (E.enrols (E.registry.add d)) (E'.enrols (E'.registry.add d))
  listen : ∀ {E E' : Engine}, rel E E' → ∀ l, rel (E.listen l) (E'.listen l)
  unlisten : ∀ {E E' : Engine}, rel E E' → ∀ n, rel (E.unlisten n).1 (E'.unlisten n).1

namespace Engine

/-- A crew has been hired, and nobody told. -/
def hired (E : Engine) : Engine :=
  { E with
    crews := E.crews ++ [{ workers := List.replicate E.settings.dispatchWorkers.toNat .looking
                           tick := some (E.now + E.settings.housekeepingInterval.toNat) }]
    running := some E.crews.length }

instance : Coe Parity Likeness := ⟨Parity.toLikeness⟩

/-- A dispatch to the two is answered alike, and leaves them related. -/
def Dispatches (P : Parity) (E E' : Engine) : Prop :=
  ∀ X X' : Engine, X.queue = E.queue → X'.queue = E'.queue → Like P X X' →
    ∀ t, Agrees (Like P) (X.dispatch t) (X'.dispatch t)

namespace Like

variable {P : Parity} {E E' : Engine}

/-! ## What can be seen -/

/-- What is seen of frames is seen of both. -/
theorem watch {β : Type} (h : Like P E E') (f : Engine → β) (hf : ∀ E, f E.frame = f E) :
    f E' = f E := by
  rw [← hf E', ← hf E]
  exact congrArg f (P.frame h).symm

theorem ready (h : Like P E E') : E'.ready = E.ready := h.watch Engine.ready fun _ => rfl
theorem writes (h : Like P E E') : E'.writes = E.writes := h.watch Engine.writes fun _ => rfl
theorem crews (h : Like P E E') : E'.crews = E.crews := h.watch Engine.crews fun _ => rfl
theorem crewAt (h : Like P E E') (c : Nat) : E'.crewAt c = E.crewAt c :=
  h.watch (·.crewAt c) fun _ => rfl
theorem running (h : Like P E E') : E'.running = E.running := h.watch Engine.running fun _ => rfl
theorem guards (h : Like P E E') : E'.guards = E.guards := h.watch Engine.guards fun _ => rfl
theorem tasks (h : Like P E E') : E'.tasks = E.tasks := h.watch Engine.tasks fun _ => rfl
theorem finished (h : Like P E E') : E'.finished = E.finished :=
  h.watch Engine.finished fun _ => rfl

/-! ## Changing one thing -/

/-- What turns go by apart from scripts is changed in both, by what they have in common. -/
theorem remap (h : Like P E E') {f : Engine → Engine} (hf : ∀ E, f E = E.install (f E.frame)) :
    Like P (f E) (f E') := by
  rw [hf E, hf E', ← P.frame h]
  exact P.install h _

/-- What depends on something that both have in common, given that. -/
theorem supposed {α : Type} (h : Like P E E') (a : Engine → α) (ha : ∀ E, a E.frame = a E)
    {f : α → Engine → Engine} (hf : ∀ x, Like P (f x E) (f x E')) :
    Like P (f (a E) E) (f (a E') E') := by
  rw [h.watch a ha]
  exact hf _

theorem finishTask (h : Like P E E') (n : Nat) (x : TaskResult) :
    Like P (E.finishTask n x) (E'.finishTask n x) :=
  h.remap (f := (·.finishTask n x)) fun _ => rfl

theorem startTask (h : Like P E E') : Like P E.startTask.1 E'.startTask.1 :=
  h.remap (f := (·.startTask.1)) fun _ => rfl

end Like

/-- What nothing can break no turn can break, whatever job takes it. -/
def accord (P : Parity) : Accord where
  toLikeness := P.toLikeness
  apart _ := false
  ready {E E'} h j _ := by rw [show E'.ready = E.ready from Like.ready h]
  called {E E'} h j _ := by
    rw [show E'.ready = E.ready from Like.ready h]
    exact Like.remap (P := P) h (f := fun X => { X with ready := E.ready.erase j }) fun _ => rfl
  write {E E'} h k _ := by rw [show E'.writes = E.writes from Like.writes h]
  setWrite {E E'} h k _ x :=
    Like.remap (P := P) h (f := fun X => { X with writes := X.writes.set k x }) fun _ => rfl
  finishTask h n x := Like.finishTask (P := P) h n x
  worker h c w _ := Like.watch (P := P) h (·.workerAt c w) fun _ => rfl
  setWorker h c w _ s := Like.remap (P := P) h (f := (·.setWorker c w s)) fun _ => rfl
  shutdown h c := Like.watch (P := P) h (fun E => (E.crewAt c).shutdown) fun _ => rfl
  woken h := Like.watch (P := P) h (·.queue.woken) fun _ => rfl
  take := P.take
  resume := P.resume
  abort := P.abort
  stops h := Like.watch (P := P) h Engine.stops fun _ => rfl
  setStop h k s :=
    Like.remap (P := P) h (f := fun X => { X with stops := X.stops.set k s }) fun _ => rfl
  gone h c := Like.watch (P := P) h (fun E => (E.crewAt c).workers.all (· == .stopped)) fun _ => rfl
  crews h := Like.watch (P := P) h (·.crews.length) fun _ => rfl
  tick h c := Like.watch (P := P) h (fun E => (E.crewAt c).tick) fun _ => rfl
  setTick h c t := Like.remap (P := P) h
    (f := fun X => { X with crews := X.crews.modify c fun x => { x with tick := t } }) fun _ => rfl
  setNow := P.setNow
  keepHouse := P.keepHouse

namespace Like

variable {P : Parity} {E E' : Engine}

/-! ## Turns -/

theorem wakeWorkers (h : Like P E E') : Like P E.wakeWorkers E'.wakeWorkers :=
  Accord.wakeWorkers (A := accord P) h

theorem turn (h : Like P E E') (hd : Dispatches P E E') (j : Job) (second : Bool) :
    Like P (E.turn j second) (E'.turn j second) :=
  Accord.turn (A := accord P) h rfl second (fun r _ _ => .inl (P.admission h r))
    fun _ _ _ t _ _ _ hX => hd _ _ (by rfl) (by rfl) hX t

theorem strike (h : Like P E E') {t : Nat} (ht : E.now ≤ t) :
    Like P (E.strike t) (E'.strike t) := Accord.strike (A := accord P) h ht

/-! ## Start and stop -/

theorem hire (h : Like P E E') : Like P E.hire E'.hire := by
  have hc := h.remap (f := hired) fun _ => rfl
  exact h.supposed (fun E => (E.settings.dispatchWorkers.toNat,
      E.settings.housekeepingInterval.toNat, E.crews.length)) (fun _ => rfl)
    (f := fun x E => (List.range x.1).foldl (fun E w => E.wake (.worker x.2.2 w))
      (E.hired.notice (.started x.1 x.2.1)))
    fun x => foldl (fun w h => h.wake (.worker x.2.2 w)) _ (hc.notice _)

theorem dismiss (h : Like P E E') (c : Nat) : Like P (E.dismiss c) (E'.dismiss c) := by
  have hc := h.remap (f := fun E => { E with
    running := none
    crews := E.crews.modify c fun x => { x with shutdown := true } }) fun _ => rfl
  exact hc.supposed (fun E => (E.crewAt c).workers.length) (fun _ => rfl)
    (f := fun n E => (List.range n).foldl (fun E w => E.wake (.worker c w)) E)
    fun n => foldl (fun w h => h.wake (.worker c w)) _ hc

theorem startWork (h : Like P E E') : Agrees (Like P) E.startWork E'.startWork := by
  unfold Engine.startWork
  rw [h.running]
  split
  · exact ⟨rfl, h⟩
  · exact ⟨rfl, h.hire⟩

theorem stopWork (h : Like P E E') : Agrees (Like P) E.stopWork E'.stopWork := by
  have ht : Agrees (Like P) E.startTask E'.startTask := ⟨congrArg (· + 1) h.tasks, h.startTask⟩
  obtain ⟨X, X', n, hx, hx', hX⟩ := ht.pair
  unfold Engine.stopWork
  rw [hx, hx']
  dsimp only
  split
  · next hr =>
    split
    · exact ⟨rfl, hX.finishTask _ _⟩
    · next hr' => cases hr'.symm.trans (hX.running.trans hr)
  · next c hr =>
    split
    · next hr' => cases hr'.symm.trans (hX.running.trans hr)
    · next c' hr' =>
      obtain rfl : c' = c := Option.some.inj (hr'.symm.trans (hX.running.trans hr))
      have hs := hX.remap (f := fun X => { X with stops := X.stops ++ [{ crew := c', task := n }] })
        fun _ => rfl
      exact ⟨rfl, hX.supposed (fun X => X.stops.length) (fun _ => rfl)
        (f := fun k X => (Engine.dismiss { X with
          stops := X.stops ++ [{ crew := c', task := n }] } c').wake (.stop k))
        fun k => (hs.dismiss c').wake (.stop k)⟩

/-! ## Writes -/

theorem write (h : Like P E E') (aspect : Aspect) (node name : String) (value : Json) :
    Agrees (Like P) (E.write aspect node name value) (E'.write aspect node name value) := by
  refine ⟨congrArg (· + 1) h.tasks, ?_⟩
  have hh : E'.registry.host = E.registry.host := h.watch (·.registry.host) fun _ => rfl
  -- a write that has begun, by what the graph is afterwards and whom it tells
  have hw := fun (host : Option (Graph Unit)) (keys : List String) =>
    h.supposed (fun E => (E.tasks + 1, E.writes.length)) (fun _ => rfl) (f := fun x E => Engine.wake
      { E with
        tasks := x.1
        registry := { E.registry with host }
        writes := E.writes ++ [{ node, name, value, aspect, remaining := keys, task := x.1 }] }
      (.write x.2))
    fun x => (h.remap (f := fun E => { E with
      tasks := x.1
      registry := { E.registry with host }
      writes := E.writes ++ [_] }) fun _ => rfl).wake _
  unfold Engine.write Engine.startTask
  dsimp only
  rw [hh]
  cases E.registry.host with
  | none => exact hw none []
  | some g => exact hw _ _

/-! ## From outside -/

theorem notify (h : Like P E E') (n : Nat) (t : Trigger) (a : Admission) :
    Agrees (Like P) (E.notify n t a) (E'.notify n t a) := by
  refine ⟨congrArg (· + 1) h.tasks, ?_⟩
  have hs := fun m : Nat => h.startTask.spawn n t a (.task m)
  exact h.supposed (fun E => (E.tasks + 1, E.runs.length))
    (fun E => Prod.ext rfl (List.length_map Run.face))
    (f := fun x E => (E.startTask.1.spawn n t a (.task x.1)).1.wake (.run x.2))
    fun x => (hs x.1).wake _

theorem abandonRunOf (h : Like P E E') (c : Client) :
    Like P (E.abandonRunOf c) (E'.abandonRunOf c) := by
  unfold Engine.abandonRunOf
  rw [P.suspended h]
  split
  · exact h
  · next r _ =>
    dsimp only
    rw [h.ruleNumber]
    exact ((h.mapSlot _ (·.forget r)).setStage r _).free r

theorem abandonWrite (h : Like P E E') (k : Nat) :
    Like P (E.abandonWrite k) (E'.abandonWrite k) :=
  (h.remap (f := fun E => { E with
    writes := E.writes.modify k fun x => { x with remaining := [] }
    ready := E.ready.erase (.write k) }) fun _ => rfl).abandonRunOf _

theorem unguard (h : Like P E E') (name : String) :
    Agrees (Like P) (E.unguard name) (E'.unguard name) := by
  have hg : E'.guards.find? (·.1 == name) = E.guards.find? (·.1 == name) := by rw [h.guards]
  unfold Engine.unguard
  rw [hg]
  split
  · exact ⟨rfl, h⟩
  · next n _ =>
    have hs : (E'.registry.instances.getD n default).slot
        = (E.registry.instances.getD n default).slot := by
      rw [List.getD_eq_getElem?_getD, List.getD_eq_getElem?_getD,
        ← Option.getD_map (fun i : Instance => i.slot), h.nth n (·.slot) fun _ => rfl,
        Option.getD_map]
    dsimp only
    rw [hs]
    exact ⟨rfl, foldl (fun w h => h.wake (.run w)) _ ((h.setSlot n _).remap (f := fun E =>
      { E with guards := E.guards.filter (·.1 != name) }) fun _ => rfl)⟩

theorem guard (h : Like P E E') (n : Nat) (name : String) :
    Agrees (Like P) (E.guard n name) (E'.guard n name) := by
  have hb : ∀ E : Engine, (E.registry.instances[n]?).bind (·.slot.claim?)
      = ((E.registry.instances[n]?).map (·.slot)).bind Slot.claim? := by
    intro E
    cases E.registry.instances[n]? <;> rfl
  unfold Engine.guard
  rw [hb, hb, h.nth n (·.slot) fun _ => rfl]
  split
  · exact ⟨rfl, h⟩
  · next slot _ =>
    obtain ⟨ha, hE⟩ := (h.setSlot n slot).unguard name
    exact ⟨congrArg (fun taken => some !taken) ha,
      hE.remap (f := fun E => { E with guards := E.guards ++ [(name, n)] }) fun _ => rfl⟩

theorem observe (h : Like P E E') (node id : String) :
    Agrees (Like P) (E.observe node id) (E'.observe node id) := by
  have hR := P.observe h node id
  unfold Engine.observe
  generalize E.registry.observe node id = x at hR ⊢
  generalize E'.registry.observe node id = x' at hR ⊢
  obtain ⟨R, a⟩ := x
  obtain ⟨R', a'⟩ := x'
  obtain ⟨ha, hE : Like P { E with registry := R } { E' with registry := R' }⟩ := hR
  obtain rfl : a' = a := ha
  cases a' with
  | error e => exact ⟨rfl, h⟩
  | ok _ => exact ⟨rfl, hE.notice _⟩

theorem addInstance (h : Like P E E') (d : Definition) :
    Agrees (Like P) (E.addInstance d) (E'.addInstance d) := P.add h d

theorem clearFacts (h : Like P E E') (n : Nat) : Like P (E.clearFacts n) (E'.clearFacts n) :=
  P.modifyRule h n (f := Rule.clearFacts) fun _ _ => rfl

/-! ## Steps -/

/-- **Whatever is asked of both, they stay related.** -/
theorem serve (h : Like P E E') (hd : Dispatches P E E') (q : Request) :
    Like P (E.serve q) (E'.serve q) := by
  cases q with
  | define d => exact (h.define d).state
  | deregister id => exact (h.deregister id).state
  | observe node id => exact (h.observe node id).state
  | setPaused id paused => exact (h.setPaused id paused).state
  | dispatch t => exact (hd E E' rfl rfl h t).state
  | sweep => exact P.sweep h
  | notify n t a => exact (h.notify n t a).state
  | write a node name value => exact (h.write a node name value).state
  | abandon task => exact h.abandonRunOf _
  | abandonWrite k => exact h.abandonWrite k
  | guard n name => exact (h.guard n name).state
  | unguard name => exact (h.unguard name).state
  | listen l => exact P.listen h l
  | unlisten number => exact P.unlisten h number
  | clearFacts n => exact h.clearFacts n
  | clearHistory => exact h.map (f := fun E => { E with history := E.history.clear }) fun _ => rfl
  | add d => exact (h.addInstance d).state
  | bind name d =>
    exact h.map (f := fun E => { E with commands := E.commands.bind name d }) fun _ => rfl
  | unbind name =>
    exact h.map (f := fun E => { E with commands := E.commands.unbind name }) fun _ => rfl
  | openGate gate => exact h.openGate gate
  | subscribe filter =>
    exact h.map (f := fun E => { E with bus := (E.bus.join filter).1 }) fun _ => rfl
  | unsubscribe => exact h.map (f := fun E => { E with bus := E.bus.leave }) fun _ => rfl
  | start => exact h.startWork.state
  | stop => exact h.stopWork.state

end Like

end Engine

end ReactiveRules
