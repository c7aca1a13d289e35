import ReactiveRules.Proofs.Likeness.Turns
import ReactiveRules.Proofs.Ways.Abreast

/-!
# `Proofs/Ways/Errands.lean` — turns of engines that are abreast

Whoever hands a notification over is done with it as soon as its run is under way: the write has
nobody else to notify, the worker finds nothing in the queue. **A turn of theirs has to do with the
errand alone** (`SeesTo.turn`). **Any other turn does the same to two engines that are abreast**
(`attuned`), and time passes alike in both.
-/

set_option autoImplicit false

namespace ReactiveRules

namespace DispatchQueue

variable {α ω : Type} {q : DispatchQueue α ω}

namespace IsQuiet

theorem poll (h : q.IsQuiet) : q.poll = (q, none) := by
  unfold DispatchQueue.poll
  rw [h.entries]
  rfl

/-- Whoever looks into a queue with nothing in it waits. -/
theorem take (h : q.IsQuiet) (w : ω) : (q.take w).1.IsQuiet ∧ (q.take w).2 = none := by
  have hp : ({ q with permit := false } : DispatchQueue α ω).IsQuiet := ⟨h.entries, h.woken⟩
  unfold DispatchQueue.take
  dsimp only
  rw [hp.poll]
  exact ⟨⟨h.entries, h.woken⟩, rfl⟩

theorem resume [BEq ω] (h : q.IsQuiet) (w : ω) : (q.resume w).1.IsQuiet ∧ (q.resume w).2 = none := by
  have hw : q.woken.erase w = [] := by rw [h.woken]; rfl
  have hr : ({ q with woken := q.woken.erase w } : DispatchQueue α ω).IsQuiet := ⟨h.entries, hw⟩
  exact hr.take w

theorem abort [BEq ω] (h : q.IsQuiet) (w : ω) : (q.abort w).IsQuiet := by
  have hw : q.woken.contains w = false := by rw [h.woken]; rfl
  unfold DispatchQueue.abort
  rw [hw]
  exact ⟨h.entries, h.woken⟩

theorem cleanUp (h : q.IsQuiet) (now : Nat) : (q.cleanUp now).IsQuiet := ⟨h.entries, h.woken⟩

end IsQuiet

end DispatchQueue

namespace Engine

variable {p : Errand} {E E' F : Engine}

/-! ## The errand's own turns -/

namespace SeesTo

/-- What is done to the queue by a worker that there is has to do with the errand alone. -/
theorem setQueue (E : Engine) {q : DispatchQueue Trigger (Nat × Nat)}
    (hc : p.crew < E.crews.length) (hq : E.queue.IsQuiet → q.IsQuiet) :
    SeesTo p E { E with queue := q } :=
  ⟨rfl, rfl, .inr ⟨hc, hq⟩, rfl, rfl, fun h => { h with }⟩

theorem called (E : Engine) {j : Job} (hj : p.owns j = true) :
    SeesTo p E { E with ready := E.ready.erase j } where
  outline := rfl
  others := by
    have hnot : j ∉ E.others p := by simp [mem_others, hj]
    show (E.ready.erase j).filter (fun j => !p.owns j) = E.others p
    rw [← List.erase_filter]
    exact List.erase_of_not_mem hnot
  queue := .inl rfl
  host := rfl
  crews := rfl
  carries h := { h with }

theorem performWrite (h : E.Carries p) : SeesTo p E (E.performWrite p.writes) := by
  unfold Engine.performWrite
  cases hx : E.writes[p.writes]? with
  | none => exact refl p E
  | some x =>
    obtain ⟨hr, ht⟩ := h.write x hx
    dsimp only
    rw [hr]
    exact finishTask E ht _

theorem performWorker (h : E.Carries p) (hq : p.crew < E.crews.length → E.queue.IsQuiet)
    (second : Bool) : SeesTo p E (E.performWorker p.crew p.worker second) := by
  have hown : p.owns (.worker p.crew p.worker) = true := by simp [Errand.owns]
  unfold Engine.performWorker
  dsimp only
  rw [h.crew]
  cases hw : E.workerAt p.crew p.worker with
  | looking =>
    have hc : p.crew < E.crews.length := lt_of_workers (lt_of_workerAt (by rw [hw]; simp))
    obtain ⟨hquiet, hnone⟩ := (hq hc).take (p.crew, p.worker)
    simp only [Bool.false_eq_true, if_false]
    unfold Engine.served
    rw [hnone]
    exact (setQueue E hc fun _ => hquiet).trans (setWorker _ hown (by simp))
  | idle =>
    have hc : p.crew < E.crews.length := lt_of_workers (lt_of_workerAt (by rw [hw]; simp))
    have hwoken : E.queue.woken.contains (p.crew, p.worker) = false := by
      rw [(hq hc).woken]
      rfl
    simp only [hwoken, Bool.false_and, Bool.false_eq_true, if_false]
    exact refl p E
  | busy r => exact refl p E
  | stopped => exact refl p E

/-- **A turn of the errand's own has to do with the errand alone.** -/
theorem turn (h : E.Carries p) (hq : p.crew < E.crews.length → E.queue.IsQuiet) {j : Job}
    (hj : p.owns j = true) (second : Bool) : SeesTo p E (E.turn j second) := by
  have hc := called E hj
  unfold Engine.turn
  split
  · cases j with
    | write k =>
      obtain rfl : k = p.writes := by simpa [Errand.owns] using hj
      exact hc.trans (performWrite (hc.carries h))
    | worker c w =>
      obtain ⟨rfl, rfl⟩ : c = p.crew ∧ w = p.worker := by simpa [Errand.owns] using hj
      exact hc.trans (performWorker (hc.carries h) hq second)
    | run r => cases hj
    | script e => cases hj
    | stop k => cases hj
  · exact refl p E

end SeesTo

/-! ## Turns of all others -/

theorem SeesTo.notice (E : Engine) (forgotten swept : Nat) :
    SeesTo p E (E.notice (.housekeeping forgotten swept)) where
  outline := by
    have hj : (E.journal ++ [(E.now, Entry.notice (.housekeeping forgotten swept))]).filter
        (fun x => !x.2.isHousekeeping) = E.journal.filter fun x => !x.2.isHousekeeping := by
      rw [List.filter_append]
      simp [Entry.isHousekeeping]
    show ({ E.outline p with
      journal := (E.journal ++ [(E.now, Entry.notice (.housekeeping forgotten swept))]).filter
        fun x => !x.2.isHousekeeping } : Engine) = _
    rw [hj]
    rfl
  others := rfl
  queue := .inl rfl
  host := rfl
  crews := rfl
  carries h := { h with }

namespace Abreast

theorem crews_length (h : Abreast p E E') : E'.crews.length = E.crews.length :=
  h.see (·.crews.length) fun _ => List.length_modify _ _ _

theorem mem_ready (h : Abreast p E E') {j : Job} (hj : p.owns j = false) :
    j ∈ E'.ready ↔ j ∈ E.ready := by
  have hm := h.beside.others.mem_iff (a := j)
  rw [mem_others, mem_others] at hm
  simpa [hj] using hm.symm

theorem called (h : Abreast p E E') (j : Job) :
    Abreast p { E with ready := E.ready.erase j } { E' with ready := E'.ready.erase j } := by
  refine h.setReady ?_
  rw [← List.erase_filter, ← List.erase_filter]
  exact h.beside.others.erase j

theorem write (h : Abreast p E E') {k : Nat} (hk : k ≠ p.writes) : E'.writes[k]? = E.writes[k]? := by
  by_cases hlt : k < p.writes
  · have hw := h.see (fun E => (E.writes.take p.writes)[k]?) fun E => by
      show ((E.writes.take p.writes).take p.writes)[k]? = _
      rw [List.take_take, Nat.min_self]
    simpa [List.getElem?_take, hlt] using hw
  · have hnone : ∀ E : Engine, E.Carries p → E.writes[k]? = none := fun E hE => by
      have hle := hE.writes
      exact List.getElem?_eq_none (by omega)
    rw [hnone E h.beside.left, hnone E' h.beside.right]

theorem setWrite (h : Abreast p E E') {k : Nat} (hk : k ≠ p.writes) (x : GraphWrite) :
    Abreast p { E with writes := E.writes.set k x } { E' with writes := E'.writes.set k x } := by
  have ho : ∀ E : Engine, ({ E with writes := E.writes.set k x } : Engine).outline p
      = { E.outline p with writes := (E.outline p).writes.set k x } := by
    intro E
    show ({ E.outline p with writes := (E.writes.set k x).take p.writes } : Engine) = _
    rw [List.take_set]
    rfl
  have hc : ∀ E : Engine, E.Carries p →
      ({ E with writes := E.writes.set k x } : Engine).Carries p := by
    intro E hE
    refine { hE with writes := ?_, write := ?_ }
    · show (E.writes.set k x).length ≤ p.writes + 1
      rw [List.length_set]
      exact hE.writes
    · show ∀ y, (E.writes.set k x)[p.writes]? = some y → _
      rw [List.getElem?_set_ne hk]
      exact hE.write
  exact ⟨by rw [ho, ho, h.outline],
    { h.beside with left := hc E h.beside.left, right := hc E' h.beside.right }⟩

/-! ### Workers -/

/-- The outline is the engine with the errand's worker idle, as far as workers go. -/
theorem worker (h : Abreast p E E') {c w : Nat} (hw : p.owns (.worker c w) = false) :
    E'.workerAt c w = E.workerAt c w := by
  refine h.see (·.workerAt c w) fun E => ?_
  rcases E.workerAt_setWorker_or p.crew p.worker .idle c w with he | ⟨hc, hw', -⟩
  · exact he
  · simp [Errand.owns, hc, hw'] at hw

theorem shutdown (h : Abreast p E E') (c : Nat) :
    (E'.crewAt c).shutdown = (E.crewAt c).shutdown :=
  h.see (fun E => (E.crewAt c).shutdown) fun E => (crewAt_setWorker E p.crew p.worker .idle c).1

/-- A change that leaves workers alone. -/
theorem modifyCrew (h : Abreast p E E') (c : Nat) {f : Crew → Crew}
    (hf : ∀ x ws, f { x with workers := ws } = { f x with workers := ws })
    (hs : ∀ x, (f x).shutdown = x.shutdown ∧ (f x).workers = x.workers) :
    Abreast p { E with crews := E.crews.modify c f } { E' with crews := E'.crews.modify c f } := by
  have ho : ∀ E : Engine, ({ E with crews := E.crews.modify c f } : Engine).outline p
      = { E.outline p with crews := (E.outline p).crews.modify c f } := by
    intro E
    have hm : (E.crews.modify c f).modify p.crew
          (fun x => { x with workers := x.workers.set p.worker .idle })
        = (E.outline p).crews.modify c f := by
      unfold Engine.outline
      dsimp only
      by_cases hc : c = p.crew
      · subst hc
        rw [List.modify_modify_eq, List.modify_modify_eq]
        refine congrArg _ (funext fun x => ?_)
        show ({ f x with workers := (f x).workers.set p.worker .idle } : Crew)
          = f { x with workers := x.workers.set p.worker .idle }
        rw [(hs x).2]
        exact (hf x _).symm
      · exact List.modify_modify_ne _ _ _ hc
    show ({ E.outline p with crews := (E.crews.modify c f).modify p.crew _ } : Engine) = _
    rw [hm]
  have hc : ∀ E : Engine, E.Carries p →
      ({ E with crews := E.crews.modify c f } : Engine).Carries p := by
    intro E hE
    have hx := Core.getD_modify_or E.crews c f { workers := [], tick := none } p.crew
    refine { hE with crew := ?_, worker := ?_ }
    · have hcrew := hE.crew
      unfold crewAt at hcrew ⊢
      rcases hx with hx | ⟨-, hx⟩ <;> rw [hx]
      · exact hcrew
      · exact (hs _).1.trans hcrew
    · have hworker := hE.worker
      unfold workerAt crewAt at hworker ⊢
      rw [List.length_modify]
      rcases hx with hx | ⟨-, hx⟩ <;> rw [hx]
      · exact hworker
      · rw [(hs _).2]
        exact hworker
  refine ⟨by rw [ho, ho, h.outline], ?_⟩
  exact
    { h.beside with
      queue := by
        dsimp only
        rw [List.length_modify, List.length_modify]
        exact h.beside.queue
      left := hc E h.beside.left
      right := hc E' h.beside.right }

/-- If there is the errand's worker in a crew, it has not stopped; the crews are the same otherwise. -/
theorem gone (h : Abreast p E E') (c : Nat) :
    (E'.crewAt c).workers.all (· == .stopped) = (E.crewAt c).workers.all (· == .stopped) := by
  by_cases hout : E.crews.length ≤ p.crew
  · -- nobody is set apart then
    have hcrews : ∀ E : Engine, E.crews.length ≤ p.crew → (E.outline p).crews = E.crews :=
      fun E hE => List.modify_eq_self hE
    have hsame : E'.crews = E.crews := by
      rw [← hcrews E hout, ← hcrews E' (h.crews_length ▸ hout), h.outline]
    unfold crewAt
    rw [hsame]
  · have hstays : ∀ E : Engine, E.Carries p → ¬ E.crews.length ≤ p.crew →
        (E.crewAt p.crew).workers.all (· == .stopped) = false := by
      intro E hE hin
      have hne := hE.worker.resolve_left hin
      have hlt := lt_of_workerAt hne
      rw [List.all_eq_false]
      refine ⟨(E.crewAt p.crew).workers[p.worker], List.getElem_mem hlt, ?_⟩
      have hx : E.workerAt p.crew p.worker = (E.crewAt p.crew).workers[p.worker] := by
        simp [workerAt, hlt]
      rw [← hx]
      simpa using hne
    by_cases hc : c = p.crew
    · subst hc
      rw [hstays E h.beside.left hout, hstays E' h.beside.right (h.crews_length ▸ hout)]
    · refine h.see (fun E => (E.crewAt c).workers.all (· == .stopped)) fun E => ?_
      have hx : (E.outline p).crewAt c = E.crewAt c := by
        unfold crewAt Engine.outline
        simp [List.getD_eq_getElem?_getD, Ne.symm hc]
      rw [hx]

/-! ### The queue -/

theorem setQueue (h : Abreast p E E') {q q' : DispatchQueue Trigger (Nat × Nat)}
    (hq : E'.queue = E.queue → q' = q) (hk : E.queue.IsQuiet → q.IsQuiet)
    (hk' : E'.queue.IsQuiet → q'.IsQuiet) :
    Abreast p { E with queue := q } { E' with queue := q' } where
  outline := h.outline
  beside :=
    { h.beside with
      queue := h.beside.queue.imp (fun ⟨hc, hc', he⟩ => ⟨hc, hc', hq he⟩) (And.imp hk hk')
      left := { h.beside.left with }
      right := { h.beside.right with } }

/-- What is done to the queue is answered alike, if nothing is found in a quiet queue and it stays
quiet. -/
theorem lines (h : Abreast p E E')
    {f : DispatchQueue Trigger (Nat × Nat) → DispatchQueue Trigger (Nat × Nat) × Option Trigger}
    (hf : ∀ q, q.IsQuiet → (f q).1.IsQuiet ∧ (f q).2 = none) :
    Agrees (Abreast p) (E.lines (f E.queue)) (E'.lines (f E'.queue)) := by
  refine ⟨?_, h.setQueue (fun he => by rw [he]) (fun hq => (hf _ hq).1) fun hq => (hf _ hq).1⟩
  show (f E'.queue).2 = (f E.queue).2
  rcases h.beside.queue with ⟨-, -, he⟩ | ⟨hq, hq'⟩
  · rw [he]
  · rw [(hf _ hq).2, (hf _ hq').2]

theorem woken (h : Abreast p E E') : E'.queue.woken = E.queue.woken := by
  rcases h.beside.queue with ⟨-, -, he⟩ | ⟨hq, hq'⟩
  · rw [he]
  · rw [hq.woken, hq'.woken]

/-! ### Housekeeping -/

theorem keepHouse (h : Abreast p E E') : Abreast p E.keepHouse E'.keepHouse := by
  have hnow : E'.now = E.now := h.see Engine.now fun _ => rfl
  have hswept : E'.sweep.2 = E.sweep.2 := h.see (fun E => E.sweep.2) fun _ => rfl
  have hs : Abreast p E.sweep.1 E'.sweep.1 := by
    have hx : Agrees Registry.Mirrors (E.registry.sweep E.now, ()) (E'.registry.sweep E'.now, ()) :=
      ⟨rfl, hnow ▸ h.registry.sweep E.now⟩
    exact (h.enrols hx).state
  have hq : Abreast p { E.sweep.1 with queue := E.queue.cleanUp E.now }
      { E'.sweep.1 with queue := E'.queue.cleanUp E'.now } :=
    hs.setQueue (fun he => by rw [show E'.queue = E.queue from he, hnow]) (fun hk => hk.cleanUp _)
      fun hk => hk.cleanUp _
  -- what is told of it differs with what the queues had to forget
  have htold : ∀ (X : Engine) (b : Bool) (forgotten swept : Nat),
      SeesTo p X (if b then X.notice (.housekeeping forgotten swept) else X) := by
    intro X b forgotten swept
    cases b with
    | true => exact .notice X forgotten swept
    | false => exact .refl p X
  exact (hq.left (htold _ _ _ _)).right (htold _ _ _ _)

end Abreast

/-- **No turn but the errand's own can tell engines that are abreast apart.** -/
def attuned (p : Errand) : Accord where
  toLikeness := abreast p
  apart := p.owns
  ready h j hj := by
    have hm := Abreast.mem_ready h hj
    rw [Bool.eq_iff_iff, List.contains_iff_mem, List.contains_iff_mem]
    exact hm
  called h j _ := Abreast.called h j
  write h k hk := Abreast.write h (by simpa [Errand.owns] using hk)
  setWrite h k hk x := Abreast.setWrite h (by simpa [Errand.owns] using hk) x
  finishTask h n x := Abreast.finishTask h n x
  worker h c w hw := Abreast.worker h hw
  setWorker h c w hw s := Abreast.setWorker h c w fun ho => absurd (hw.symm.trans ho) Bool.noConfusion
  shutdown h c := Abreast.shutdown h c
  woken h := Abreast.woken h
  take h w := Abreast.lines h (f := (·.take w)) fun _ hq => hq.take w
  resume h w := Abreast.lines h (f := (·.resume w)) fun _ hq => hq.resume w
  abort h w := Abreast.setQueue h (fun he => by rw [he]) (fun hq => hq.abort w) fun hq => hq.abort w
  stops h := Abreast.see h Engine.stops fun _ => rfl
  setStop h k s :=
    Abreast.map h (f := fun X => { X with stops := X.stops.set k s }) (fun _ => rfl) fun _ => rfl
  gone h c := Abreast.gone h c
  crews h := Abreast.crews_length h
  tick h c := Abreast.see h (fun E => (E.crewAt c).tick) fun E => by
    unfold crewAt outline
    rcases Core.getD_modify_or E.crews p.crew
      (fun x => { x with workers := x.workers.set p.worker .idle }) { workers := [], tick := none } c
      with hx | ⟨-, hx⟩ <;> rw [hx]
  setTick h c t := Abreast.modifyCrew h c (fun _ _ => rfl) fun _ => ⟨rfl, rfl⟩
  setNow h t _ := Abreast.map h (f := fun X => { X with now := t }) (fun _ => rfl) fun _ => rfl
  keepHouse h := Abreast.keepHouse h

end Engine

end ReactiveRules
