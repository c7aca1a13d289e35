import ReactiveRules.Proofs.Likeness.Scripts

/-!
# `Proofs/Likeness/Turns.lean` — turns of engines that go the same way

`Accord` is a likeness that extends to writes, workers and the passing of time, but for some jobs
that are of account in one of the two engines only. **A turn of any other job does the same to both**
(`Accord.turn`), and time passes alike (`Accord.strike`). Of a run it has to be known apart that it makes
no difference how it was admitted, and of an order to dispatch that it is answered alike.
-/

set_option autoImplicit false

namespace ReactiveRules

namespace Engine

/-- The outcome of an operation on the queue, as one of the engine. -/
def lines {α : Type} (E : Engine) (x : DispatchQueue Trigger (Nat × Nat) × α) : Engine × α :=
  ({ E with queue := x.1 }, x.2)

end Engine

open Engine in
/-- A relation between engines that no turn can break, some jobs apart. -/
structure Accord extends Likeness where
  /-- The jobs whose turns are not the same to both. -/
  apart : Job → Bool
  ready : ∀ {E E' : Engine}, rel E E' → ∀ {j}, apart j = false →
    E'.ready.contains j = E.ready.contains j
  called : ∀ {E E' : Engine}, rel E E' → ∀ {j}, apart j = false →
    rel { E with ready := E.ready.erase j } { E' with ready := E'.ready.erase j }
  -- writes
  write : ∀ {E E' : Engine}, rel E E' → ∀ {k}, apart (.write k) = false →
    E'.writes[k]? = E.writes[k]?
  setWrite : ∀ {E E' : Engine}, rel E E' → ∀ {k}, apart (.write k) = false → ∀ x,
    rel { E with writes := E.writes.set k x } { E' with writes := E'.writes.set k x }
  finishTask : ∀ {E E' : Engine}, rel E E' → ∀ n x, rel (E.finishTask n x) (E'.finishTask n x)
  -- workers
  worker : ∀ {E E' : Engine}, rel E E' → ∀ {c w}, apart (.worker c w) = false →
    E'.workerAt c w = E.workerAt c w
  setWorker : ∀ {E E' : Engine}, rel E E' → ∀ {c w}, apart (.worker c w) = false → ∀ s,
    rel (E.setWorker c w s) (E'.setWorker c w s)
  shutdown : ∀ {E E' : Engine}, rel E E' → ∀ c, (E'.crewAt c).shutdown = (E.crewAt c).shutdown
  woken : ∀ {E E' : Engine}, rel E E' → E'.queue.woken = E.queue.woken
  take : ∀ {E E' : Engine}, rel E E' → ∀ w,
    Agrees rel (E.lines (E.queue.take w)) (E'.lines (E'.queue.take w))
  resume : ∀ {E E' : Engine}, rel E E' → ∀ w,
    Agrees rel (E.lines (E.queue.resume w)) (E'.lines (E'.queue.resume w))
  abort : ∀ {E E' : Engine}, rel E E' → ∀ w,
    rel { E with queue := E.queue.abort w } { E' with queue := E'.queue.abort w }
  -- those who wait for a crew to stop
  stops : ∀ {E E' : Engine}, rel E E' → E'.stops = E.stops
  setStop : ∀ {E E' : Engine}, rel E E' → ∀ k s,
    rel { E with stops := E.stops.set k s } { E' with stops := E'.stops.set k s }
  gone : ∀ {E E' : Engine}, rel E E' → ∀ c,
    (E'.crewAt c).workers.all (· == .stopped) = (E.crewAt c).workers.all (· == .stopped)
  -- time
  crews : ∀ {E E' : Engine}, rel E E' → E'.crews.length = E.crews.length
  tick : ∀ {E E' : Engine}, rel E E' → ∀ c, (E'.crewAt c).tick = (E.crewAt c).tick
  setTick : ∀ {E E' : Engine}, rel E E' → ∀ c t, rel
    { E with crews := E.crews.modify c fun x => { x with tick := t } }
    { E' with crews := E'.crews.modify c fun x => { x with tick := t } }
  setNow : ∀ {E E' : Engine}, rel E E' → ∀ {t}, E.now ≤ t →
    rel { E with now := t } { E' with now := t }
  keepHouse : ∀ {E E' : Engine}, rel E E' → rel E.keepHouse E'.keepHouse

namespace Engine

instance : Coe Accord Likeness := ⟨Accord.toLikeness⟩

/-- Whoever has waited for this time can take a turn. -/
theorem Like.wakeDue {Q : Likeness} {E E' : Engine} (h : Like Q E E') :
    Like Q (((List.range E.runs.length).filter E.isDue).foldl (fun E r => E.wake (.run r)) E)
      (((List.range E'.runs.length).filter E'.isDue).foldl (fun E r => E.wake (.run r)) E') := by
  have hi : E'.isDue = E.isDue := by
    funext r
    unfold Engine.isDue
    rw [h.run r Run.due? fun _ => rfl, h.now]
  rw [h.length, hi]
  exact foldl (fun r h => h.wake (.run r)) _ h

end Engine

namespace Accord

open Engine

variable {A : Accord} {E E' : Engine}

/-! ## Writes -/

theorem performWrite (h : Like A E E') {k : Nat} (hk : A.apart (.write k) = false) :
    Like A (E.performWrite k) (E'.performWrite k) := by
  unfold Engine.performWrite
  rw [A.write h hk]
  split
  · exact h
  · next x _ =>
    split
    · exact A.finishTask h _ _
    · next rule rest _ =>
      have hw : Like A { E with writes := E.writes.set k { x with remaining := rest } }
          { E' with writes := E'.writes.set k { x with remaining := rest } } := A.setWrite h hk _
      have hn : E'.registry.number? rule = E.registry.number? rule := h.number? rule
      dsimp only
      rw [hn]
      split
      · exact (hw.notice _).goOn _
      · next n _ =>
        exact hw.given (fun E => E.runs.length) (fun _ => List.length_map _)
          (f := fun r E => (E.spawn n ⟨rule, x.node, x.name, x.value, x.aspect⟩ .dropIfBusy
            (.write k)).1.goOn (.run r))
          fun r => (hw.spawn n _ _ _).goOn _

/-! ## Workers -/

theorem wakeWorkers (h : Like A E E') : Like A E.wakeWorkers E'.wakeWorkers := by
  unfold Engine.wakeWorkers
  rw [A.woken h]
  exact Like.foldl (fun w h => h.wake (.worker w.1 w.2)) _ h

theorem wakeStops (h : Like A E E') (c : Nat) : Like A (E.wakeStops c) (E'.wakeStops c) := by
  unfold Engine.wakeStops
  rw [A.stops h]
  exact Like.foldl (fun k h => h.wake (.stop k)) _ h

section Worker

variable {c w : Nat} (hw : A.apart (.worker c w) = false)

include hw

theorem stopWorker (h : Like A E E') : Like A (E.stopWorker c w) (E'.stopWorker c w) := by
  have hs : Like A (E.setWorker c w .stopped) (E'.setWorker c w .stopped) := A.setWorker h hw _
  exact wakeStops (hs.notice _) c

theorem assign (h : Like A E E') (t : Trigger) : Like A (E.assign c w t) (E'.assign c w t) := by
  unfold Engine.assign
  rw [h.number?]
  split
  · have hs : Like A _ _ := A.setWorker (h.notice (.dispatchUnknown w t.rule)) hw .looking
    exact hs.goOn _
  · next n _ =>
    refine h.given (fun E => E.runs.length) (fun _ => List.length_map _)
      (f := fun r E => ((E.spawn n t .wait (.worker c w)).1.setWorker c w (.busy r)).goOn (.run r))
      fun r => ?_
    have hs : Like A _ _ := A.setWorker (h.spawn n t .wait (.worker c w)) hw (.busy r)
    exact hs.goOn _

theorem served {x x' : DispatchQueue Trigger (Nat × Nat) × Option Trigger}
    (hx : Agrees (Like A) (E.lines x) (E'.lines x')) :
    Like A (E.served c w x) (E'.served c w x') := by
  obtain ⟨q, got⟩ := x
  obtain ⟨q', got'⟩ := x'
  obtain ⟨ha, hE : Like A { E with queue := q } { E' with queue := q' }⟩ := hx
  obtain rfl : got' = got := ha
  cases got' with
  | none => exact A.setWorker hE hw _
  | some t => exact assign hw hE t

theorem leave (h : Like A E E') : Like A (E.leave c w) (E'.leave c w) := by
  have ha : Like A { E with queue := E.queue.abort (c, w) } { E' with queue := E'.queue.abort (c, w) } :=
    A.abort h (c, w)
  exact stopWorker hw (wakeWorkers ha)

theorem performWorker (h : Like A E E') (second : Bool) :
    Like A (E.performWorker c w second) (E'.performWorker c w second) := by
  unfold Engine.performWorker
  dsimp only
  rw [A.shutdown h, A.worker h hw, A.woken h]
  split
  · split
    · exact stopWorker hw h
    · exact served hw (A.take h (c, w))
  · split
    · have hs := served hw (A.resume h (c, w))
      rw [A.worker hs hw]
      split
      · exact leave hw hs
      · exact hs
    · split
      · exact leave hw h
      · exact h
  · exact h

end Worker

theorem performStop (h : Like A E E') (k : Nat) : Like A (E.performStop k) (E'.performStop k) := by
  have hk : E'.stops[k]? = E.stops[k]? := by rw [A.stops h]
  unfold Engine.performStop
  rw [hk]
  split
  · exact h
  · next s _ =>
    rw [A.gone h]
    split
    · exact h
    · have hs : Like A _ _ := A.setStop (A.setTick h s.crew none) k { s with answered := true }
      have hn : Like A _ _ := A.finishTask (hs.notice .stopped) s.task .stopped
      exact hn

/-! ## Turns -/

theorem perform (h : Like A E E') {j : Job} (hj : A.apart j = false) (second : Bool)
    (hr : ∀ r, j = .run r → (E.runAt r).isComing → Indifferent E E' r)
    (hs : ∀ e, j = .script e → Orders A E E' e) :
    Like A (E.perform j second) (E'.perform j second) := by
  cases j with
  | run r => exact h.performRun second (hr r rfl)
  | script e => exact h.performScript e (hs e rfl)
  | write k => exact performWrite h hj
  | worker c w => exact performWorker hj h second
  | stop k => exact performStop h k

/-- **A turn does the same to both.** -/
theorem turn (h : Like A E E') {j : Job} (hj : A.apart j = false) (second : Bool)
    (hr : ∀ r, j = .run r → (E.runAt r).isComing → Indifferent E E' r)
    (hs : ∀ e, j = .script e → j ∈ E.ready → Orders A { E with ready := E.ready.erase j }
      { E' with ready := E'.ready.erase j } e) :
    Like A (E.turn j second) (E'.turn j second) := by
  have hc : Like A { E with ready := E.ready.erase j } { E' with ready := E'.ready.erase j } :=
    A.called h hj
  unfold Engine.turn
  rw [A.ready h hj]
  split
  · next hready =>
    exact perform hc hj second hr fun e he => hs e he (List.contains_iff_mem.mp hready)
  · exact h

/-! ## Time -/

theorem tickCrew (h : Like A E E') (c : Nat) : Like A (E.tickCrew c) (E'.tickCrew c) := by
  have hk : Like A E.keepHouse E'.keepHouse := A.keepHouse h
  unfold Engine.tickCrew
  rw [A.tick h, h.now]
  split
  · exact hk.given (fun E => some (E.now + E.settings.housekeepingInterval.toNat)) (fun _ => rfl)
      (f := fun t E => { E with crews := E.crews.modify c fun x => { x with tick := t } })
      fun t => A.setTick hk c t
  · exact h

/-- **Time passes alike.** -/
theorem strike (h : Like A E E') {t : Nat} (ht : E.now ≤ t) :
    Like A (E.strike t) (E'.strike t) := by
  have hn : Like A { E with now := t } { E' with now := t } := A.setNow h ht
  have hc := Like.foldl (fun c h => tickCrew h c) (List.range E.crews.length) hn
  unfold Engine.strike
  dsimp only
  rw [A.crews h]
  exact hc.wakeDue

end Accord

end ReactiveRules
