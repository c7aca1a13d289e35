import ReactiveRules.Proofs.Engine.Labour

/-!
# `Proofs/Engine/Crews.lean` — workers and their queue

**At all times those who wait stand in the line of the queue, those who are woken or about to look
have a turn to come, and nobody has stopped that was not told to** (`Engine.Reachable.staffed`). So
an engine at work of which no part can take a turn leaves an entry in the queue only if all its
workers are busy, and whoever has been told to stop, and has, takes nothing any more.
-/

set_option autoImplicit false

namespace ReactiveRules

namespace Engine

variable {E E' : Engine} {c w : Nat} {e : QueueEntry Trigger}

/-- The same workers are at the same, and the same runs under way. -/
theorem Lined.same (h : E.Lined) (hw : ∀ c w, E'.workerAt c w = E.workerAt c w)
    (hr : E'.runs = E.runs) (hl : E'.queue.line = E.queue.line) (hf : E'.queue.Fed)
    (hk : ∀ c w, (c, w) ∈ E'.queue.woken → Job.worker c w ∈ E'.ready)
    (hj : ∀ c w, Job.worker c w ∈ E.ready → Job.worker c w ∈ E'.ready) : E'.Lined where
  manned := fun c w r => by
    have hrun : E'.runAt r = E.runAt r := by rw [runAt, hr, runAt]
    rw [hw, hrun]
    exact h.manned c w r
  looking := fun c w hx => hj c w (h.looking c w (hw c w ▸ hx))
  idle := fun c w => by
    rw [hw, hl]
    exact h.idle c w
  nodup := hl ▸ h.nodup
  woken := hk
  fed := hf

/-- A worker that has become free was busy, and is about to look. -/
theorem Lined.attends (h : E.Lined) (ha : E.Attends E') : E'.Lined := by
  obtain ⟨a, -, hq⟩ := ha.queue
  have hline : E'.queue.line = E.queue.line := by rw [hq]; rfl
  refine ⟨ha.manned, fun c w hl => ?_, fun c w => ?_, hline ▸ h.nodup, fun c w hm => ?_, ?_⟩
  · rcases ha.worker c w with hx | ⟨-, -, hr⟩
    · exact ha.ready c w (h.looking c w (hx ▸ hl))
    · exact hr
  · rw [hline, ← h.idle c w]
    rcases ha.worker c w with hx | ⟨⟨r, hb⟩, hl, -⟩
    · rw [hx]
    · rw [hb, hl]
      exact ⟨WorkerState.noConfusion, WorkerState.noConfusion⟩
  · rw [hq] at hm
    exact ha.ready c w (h.woken c w hm)
  · rw [hq]
    exact h.fed

theorem Lined.posts {s : WorkerState} (h : E.Lined) (hp : E.Posts E' c w s) (hm : E'.Manned)
    (hlook : s = .looking → Job.worker c w ∈ E'.ready) : E'.Lined := by
  refine ⟨hm, fun c' w' hl => ?_, fun c' w' => ?_, hp.nodup, hp.woken, hp.fed⟩
  · rw [hp.worker] at hl
    split at hl
    · next hcw =>
      obtain ⟨rfl, rfl⟩ := hcw
      exact hlook hl
    · next hcw => exact hp.ready c' w' (h.looking c' w' hl) hcw
  · rw [hp.worker, hp.line]
    split
    · next hcw =>
      obtain ⟨rfl, rfl⟩ := hcw
      exact ⟨fun hi => .inr ⟨rfl, hi⟩, fun hx => hx.elim (fun hx => absurd rfl hx.2) And.right⟩
    · next hcw =>
      have hne : (c', w') ≠ (c, w) := fun hx => hcw (by simpa [eq_comm] using hx)
      rw [h.idle c' w']
      exact ⟨fun hi => .inl ⟨hi, hne⟩, fun hx => hx.elim And.left fun hx => absurd hx.1 hne⟩

theorem Hires.crewAt (h : E.Hires E') : ∃ tick, ∀ c, E'.crewAt c = if c = E.crews.length then
    { workers := List.replicate E.settings.dispatchWorkers.toNat .looking, tick }
    else E.crewAt c := by
  obtain ⟨tick, hcrews⟩ := h.crews
  refine ⟨tick, fun c => ?_⟩
  rw [Engine.crewAt, hcrews]
  exact Core.getD_concat _ _ _ _

theorem Hires.length (h : E.Hires E') : E'.crews.length = E.crews.length + 1 := by
  obtain ⟨tick, hcrews⟩ := h.crews
  rw [hcrews, List.length_append]
  rfl

/-- Nobody works in a crew that has not been hired yet. -/
theorem workerAt_length (E : Engine) (w : Nat) : E.workerAt E.crews.length w = .stopped := by
  by_contra hne
  exact Nat.lt_irrefl _ (lt_of_workers (lt_of_workerAt hne))

/-- Only the workers that are hired have changed. -/
theorem Hires.workerAt (h : E.Hires E') (c w : Nat) : E'.workerAt c w =
    if c = E.crews.length ∧ w < E.settings.dispatchWorkers.toNat then .looking
    else E.workerAt c w := by
  obtain ⟨tick, hcrew⟩ := h.crewAt
  rw [Engine.workerAt, hcrew]
  by_cases hc : c = E.crews.length
  · subst hc
    rw [if_pos rfl, workerAt_length]
    by_cases hw : w < E.settings.dispatchWorkers.toNat <;> simp [List.getD_eq_getElem?_getD, hw]
  · rw [if_neg hc, if_neg fun hx => hc hx.1]
    rfl

theorem Lined.hires (h : E.Lined) (hh : E.Hires E') : E'.Lined := by
  have hrun : ∀ r, E'.runAt r = E.runAt r := fun r => by rw [runAt, hh.runs, runAt]
  have hsame : ∀ c w, (∀ r, E'.workerAt c w = .busy r ↔ E.workerAt c w = .busy r) ∧
      (E'.workerAt c w = .idle ↔ E.workerAt c w = .idle) := fun c w => by
    rw [hh.workerAt]
    split
    · next hc =>
      rw [hc.1, workerAt_length]
      exact ⟨fun _ => ⟨WorkerState.noConfusion, WorkerState.noConfusion⟩,
        ⟨WorkerState.noConfusion, WorkerState.noConfusion⟩⟩
    · exact ⟨fun _ => Iff.rfl, Iff.rfl⟩
  refine ⟨fun c w r => ?_, fun c w hl => ?_, fun c w => ?_, hh.queue ▸ h.nodup, fun c w hm => ?_,
    hh.queue ▸ h.fed⟩
  · rw [(hsame c w).1, hrun]
    exact h.manned c w r
  · rw [hh.workerAt] at hl
    split at hl
    · next hc =>
      rw [hc.1]
      exact hh.looks w hc.2
    · exact hh.ready c w (h.looking c w hl)
  · rw [(hsame c w).2, hh.queue]
    exact h.idle c w
  · exact hh.ready c w (h.woken c w (hh.queue ▸ hm))

theorem Enters.crewAt (h : E.Enters E' e) (c : Nat) : E'.crewAt c = E.crewAt c := by
  rw [Engine.crewAt, h.aside.crews]
  rfl

theorem Enters.workerAt (h : E.Enters E' e) (c w : Nat) : E'.workerAt c w = E.workerAt c w := by
  rw [Engine.workerAt, h.crewAt]
  rfl

theorem Dismisses.length (h : E.Dismisses E' c) : E'.crews.length = E.crews.length := by
  rw [h.crews, List.length_modify]

theorem Dismisses.crewAt (h : E.Dismisses E' c) (hc : c < E.crews.length) (c' : Nat) :
    (E'.crewAt c').workers = (E.crewAt c').workers ∧
      (E'.crewAt c').shutdown = if c = c' then true else (E.crewAt c').shutdown := by
  rw [Engine.crewAt, h.crews, Core.getD_modify _ _ hc]
  split <;> exact ⟨rfl, rfl⟩

theorem Dismisses.workerAt (h : E.Dismisses E' c) (hc : c < E.crews.length) (c' w : Nat) :
    E'.workerAt c' w = E.workerAt c' w := by
  rw [Engine.workerAt, (h.crewAt hc c').1]
  rfl

theorem Answers.length {s : StopRequest} (h : E.Answers E' s) :
    E'.crews.length = E.crews.length := by
  rw [h.crews, List.length_modify]

theorem Answers.crewAt {s : StopRequest} (h : E.Answers E' s) (c : Nat) :
    (E'.crewAt c).workers = (E.crewAt c).workers ∧
      (E'.crewAt c).shutdown = (E.crewAt c).shutdown := by
  rw [Engine.crewAt, h.crews]
  rcases Core.getD_modify_or E.crews s.crew (fun x => { x with tick := none })
    { workers := [], tick := none } c with hx | ⟨-, hx⟩ <;> rw [hx] <;> exact ⟨rfl, rfl⟩

theorem Answers.workerAt {s : StopRequest} (h : E.Answers E' s) (c w : Nat) :
    E'.workerAt c w = E.workerAt c w := by
  rw [Engine.workerAt, (h.crewAt c).1]
  rfl

namespace Staffed

theorem attends (h : E.Staffed) (ha : E.Attends E') : E'.Staffed := by
  refine ⟨h.toLined.attends ha, fun c hc => ?_, fun c hc => ?_, fun c w hlt hs => ?_,
    ha.stops ▸ ha.crews ▸ h.known, fun s hs ha' w => ?_, fun c hc => ?_⟩
  · rw [ha.size, ha.settings]
    exact h.size c (ha.crews ▸ hc)
  · rw [ha.shutdown, ha.crews]
    exact h.running c (ha.running ▸ hc)
  · rw [ha.shutdown]
    rw [ha.size] at hlt
    rcases ha.worker c w with hx | ⟨-, hl, -⟩
    · exact h.stopped c w hlt (hx ▸ hs)
    · rw [hl] at hs
      cases hs
  · have hold := h.answered s (ha.stops ▸ hs) ha' w
    rcases ha.worker s.crew w with hx | ⟨⟨r, hb⟩, -, -⟩
    · exact hx.trans hold
    · rw [hold] at hb
      cases hb
  · rw [ha.running, ha.stops]
    exact h.dismissed c (ha.crews ▸ hc)

theorem enters (h : E.Staffed) (he : E.Enters E' e) : E'.Staffed := by
  have hline : E'.queue.line = E.queue.line := by rw [he.offer, DispatchQueue.line_offer]
  have hfed : E'.queue.Fed := he.offer ▸ h.fed.offer _ _ _
  refine ⟨h.same he.workerAt he.aside.runs hline hfed he.woken he.aside.ready, fun c hc => ?_,
    fun c hc => ?_, fun c w hlt hs => ?_, he.aside.stops ▸ he.aside.crews ▸ h.known,
    fun s hs ha w => ?_, fun c hc => ?_⟩
  · rw [he.crewAt, he.aside.settings]
    exact h.size c (he.aside.crews ▸ hc)
  · rw [he.crewAt, he.aside.crews]
    exact h.running c (he.aside.running ▸ hc)
  · rw [he.crewAt] at hlt ⊢
    exact h.stopped c w hlt (he.workerAt c w ▸ hs)
  · rw [he.workerAt]
    exact h.answered s (he.aside.stops ▸ hs) ha w
  · rw [he.aside.running, he.aside.stops]
    exact h.dismissed c (he.aside.crews ▸ hc)

/-- A worker changes its state. -/
theorem posts {s : WorkerState} (h : E.Staffed) (hp : E.Posts E' c w s) (hm : E'.Manned)
    (hlook : s = .looking → Job.worker c w ∈ E'.ready)
    (hstop : s = .stopped → E.workerAt c w = .stopped ∨ (E.crewAt c).shutdown = true)
    (hstay : E.workerAt c w = .stopped → s = .stopped) : E'.Staffed := by
  refine ⟨h.toLined.posts hp hm hlook, fun c' hc => ?_, fun c' hc => ?_, fun c' w' hlt hs => ?_,
    hp.stops ▸ hp.crews ▸ h.known, fun x hx ha w' => ?_, fun c' hc => ?_⟩
  · rw [hp.size, hp.settings]
    exact h.size c' (hp.crews ▸ hc)
  · rw [hp.shutdown, hp.crews]
    exact h.running c' (hp.running ▸ hc)
  · rw [hp.shutdown]
    rw [hp.size] at hlt
    rw [hp.worker] at hs
    split at hs
    · next hcw =>
      obtain ⟨rfl, rfl⟩ := hcw
      exact (hstop hs).elim (h.stopped c w hlt) id
    · exact h.stopped c' w' hlt hs
  · have hold := h.answered x (hp.stops ▸ hx) ha w'
    rw [hp.worker]
    split
    · next hcw =>
      obtain ⟨rfl, rfl⟩ := hcw
      exact hstay hold
    · exact hold
  · rw [hp.running, hp.stops]
    exact h.dismissed c' (hp.crews ▸ hc)

theorem works (h : E.Staffed) (hw : E.Works E' c w) : E'.Staffed := by
  cases hw with
  | rests hl he hr hp =>
    exact h.posts hp (hp.manned hr (fun r => Iff.rfl) h.manned) (fun hx => absurd hx hl) .inl id
  | waits hf he hr hp =>
    have hm := hp.manned hr (fun r => ⟨nofun, fun hx => absurd hx (not_busy hf r)⟩) h.manned
    exact h.posts hp hm nofun nofun fun hx => absurd hx (not_stopped hf)
  | leaves hf hd he hr hp =>
    have hm := hp.manned hr (fun r => ⟨nofun, fun hx => absurd hx (not_busy hf r)⟩) h.manned
    exact h.posts hp hm nofun (fun _ => .inr hd) fun hx => absurd hx (not_stopped hf)
  | @hands e hh hp =>
    have hf := hh.free
    cases hn : E.registry.number? e.payload.rule with
    | none =>
      obtain ⟨hr, -, hl, hj⟩ := hh.drop hn
      rw [hl] at hp
      have hm := hp.manned hr (fun r => ⟨nofun, fun hx => absurd hx (not_busy hf r)⟩) h.manned
      exact h.posts hp hm (fun _ => List.mem_of_mem_head? hj) nofun
        fun hx => absurd hx (not_stopped hf)
    | some n =>
      obtain ⟨hr, -, hb⟩ := hh.run n hn
      rw [hb] at hp
      exact h.posts hp (hp.manned_spawn hr (not_busy hf) h.manned) nofun nofun
        fun hx => absurd hx (not_stopped hf)

theorem hires (h : E.Staffed) (hh : E.Hires E') : E'.Staffed := by
  obtain ⟨tick, hcrew⟩ := hh.crewAt
  have hlen := hh.length
  refine ⟨h.toLined.hires hh, fun c hc => ?_, fun c hc => ?_, fun c w hlt hs => ?_,
    fun s hs => ?_, fun s hs ha w => ?_, fun c hc => ?_⟩
  · rw [hcrew, hh.settings]
    split
    · exact List.length_replicate
    · exact h.size c (by omega)
  · obtain rfl : E.crews.length = c := Option.some.inj (hh.running.symm.trans hc)
    rw [hcrew, if_pos rfl, hlen]
    exact ⟨Nat.lt_succ_self _, rfl⟩
  · rw [hh.workerAt] at hs
    rw [hcrew] at hlt ⊢
    by_cases hc : c = E.crews.length
    -- whoever has just been hired has not stopped
    · rw [if_pos hc, List.length_replicate] at hlt
      rw [if_pos ⟨hc, hlt⟩] at hs
      cases hs
    · rw [if_neg hc] at hlt ⊢
      rw [if_neg fun hx => hc hx.1] at hs
      exact h.stopped c w hlt hs
  · exact Nat.lt_of_lt_of_le (h.known s (hh.stops ▸ hs)) (by omega)
  · have hlt := h.known s (hh.stops ▸ hs)
    rw [hh.workerAt, if_neg fun hx => Nat.ne_of_lt hlt hx.1]
    exact h.answered s (hh.stops ▸ hs) ha w
  · rw [hh.running, hh.stops]
    by_cases hc' : c = E.crews.length
    · exact .inl (by rw [hc'])
    · refine .inr ((h.dismissed c (by omega)).resolve_left ?_)
      rw [hh.idle]
      exact nofun

theorem dismisses (h : E.Staffed) (hd : E.Dismisses E' c) : E'.Staffed := by
  have hcrew := hd.crewAt (h.running c hd.busy).1
  have hwork := hd.workerAt (h.running c hd.busy).1
  have hlen := hd.length
  obtain ⟨task, hstops⟩ := hd.stops
  refine ⟨h.same hwork hd.runs (by rw [hd.queue]) (hd.queue ▸ h.fed)
      (fun c' w hm => hd.ready c' w (h.woken c' w (hd.queue ▸ hm))) hd.ready, fun c' hc => ?_,
    fun c' hc => ?_, fun c' w hlt hs => ?_, fun s hs => ?_, fun s hs ha w => ?_, fun c' hc => ?_⟩
  · rw [(hcrew c').1, hd.settings]
    exact h.size c' (hlen ▸ hc)
  · rw [hd.running] at hc
    cases hc
  · rw [(hcrew c').2]
    split
    · rfl
    · exact h.stopped c' w ((hcrew c').1 ▸ hlt) (hwork c' w ▸ hs)
  · rw [hlen]
    rcases List.mem_append.mp (hstops ▸ hs) with hs | hs
    · exact h.known s hs
    · rw [List.mem_singleton.mp hs]
      exact (h.running c hd.busy).1
  · rw [hwork]
    rcases List.mem_append.mp (hstops ▸ hs) with hs | hs
    · exact h.answered s hs ha w
    -- the stop that has just been asked for is not answered yet
    · rw [List.mem_singleton.mp hs] at ha
      cases ha
  · rw [hstops]
    rcases h.dismissed c' (hlen ▸ hc) with hr | ⟨s, hs, hsc⟩
    · obtain rfl : c = c' := Option.some.inj (hd.busy.symm.trans hr)
      exact .inr ⟨_, List.mem_append_right _ (List.mem_singleton_self _), rfl⟩
    · exact .inr ⟨s, List.mem_append_left _ hs, hsc⟩

theorem answers {s : StopRequest} (h : E.Staffed) (ha : E.Answers E' s) : E'.Staffed := by
  have hcrew := ha.crewAt
  have hwork := ha.workerAt
  have hlen := ha.length
  obtain ⟨k, hk, hstops⟩ := ha.stops
  refine ⟨h.same hwork ha.runs (by rw [ha.queue]) (ha.queue ▸ h.fed)
      (fun c w hm => ha.ready c w (h.woken c w (ha.queue ▸ hm))) ha.ready, fun c hc => ?_,
    fun c hc => ?_, fun c w hlt hs => ?_, fun x hx => ?_, fun x hx hans w => ?_, fun c hc => ?_⟩
  · rw [(hcrew c).1, ha.settings]
    exact h.size c (hlen ▸ hc)
  · rw [(hcrew c).2, hlen]
    exact h.running c (ha.running ▸ hc)
  · rw [(hcrew c).2]
    exact h.stopped c w ((hcrew c).1 ▸ hlt) (hwork c w ▸ hs)
  · rw [hlen]
    rw [hstops] at hx
    rcases List.mem_or_eq_of_mem_set hx with hx | rfl
    · exact h.known x hx
    · exact h.known s ha.pending
  · rw [hwork]
    rw [hstops] at hx
    rcases List.mem_or_eq_of_mem_set hx with hx | rfl
    · exact h.answered x hx hans w
    · exact ha.stopped w
  · rw [ha.running, hstops]
    refine (h.dismissed c (hlen ▸ hc)).imp id ?_
    rintro ⟨x, hx, rfl⟩
    obtain ⟨m, hm⟩ := List.getElem?_of_mem hx
    by_cases hkm : k = m
    · subst hkm
      obtain rfl : s = x := Option.some.inj (hk.symm.trans hm)
      refine ⟨{ s with answered := true }, List.mem_of_getElem? (i := k) ?_, rfl⟩
      rw [List.getElem?_set_self (List.getElem?_eq_some_iff.mp hk).1]
    · refine ⟨x, List.mem_of_getElem? (i := m) ?_, rfl⟩
      rw [List.getElem?_set_ne hkm, hm]

theorem labour (h : E.Staffed) (hl : E.Labour E') : E'.Staffed := by
  cases hl with
  | attends ha => exact h.attends ha
  | enters he => exact h.enters he
  | works hw => exact h.works hw
  | hires hh => exact h.hires hh
  | dismisses hd => exact h.dismisses hd
  | answers ha => exact h.answers ha

theorem step (h : E.Staffed) (hs : Step E E') : E'.Staffed := h.labour (hs.labour h)

end Staffed

theorem Fresh.staffed (h : E.Fresh) : E.Staffed := by
  obtain ⟨_, _, _, _, _, _, rfl⟩ := h
  refine ⟨⟨fun c w r => ?_, nofun, fun c w => ⟨nofun, nofun⟩, List.nodup_nil, nofun, nofun⟩, nofun,
    nofun, nofun, nofun, nofun, nofun⟩
  exact ⟨nofun, nofun⟩

theorem Reachable.staffed (h : E.Reachable) : E.Staffed := by
  obtain ⟨E₀, h₀, hs⟩ := h
  induction hs with
  | refl => exact h₀.staffed
  | tail _ hstep ih => exact ih.step hstep

/-! ## Engines at rest -/

/-- **If nobody can take a turn and the queue is not empty, all workers of the crew at work are
busy, each with a run of its own that has not been answered.** -/
theorem Staffed.quiet (h : E.Staffed) (hq : E.ready = []) (hr : E.running = some c)
    (he : E.queue.entries ≠ []) :
    (E.crewAt c).workers.length = E.settings.dispatchWorkers.toNat ∧
      ∀ w < E.settings.dispatchWorkers.toNat, ∃ r, E.workerAt c w = .busy r ∧
        (E.runAt r).client = .worker c w ∧ (E.runAt r).answered = false := by
  obtain ⟨hc, hd⟩ := h.running c hr
  have hsize := h.size c hc
  -- a worker that waits would have been woken for the entry
  have hline : E.queue.line = [] := by
    have hwoken : E.queue.woken = [] := List.eq_nil_iff_forall_not_mem.mpr fun p hp =>
      absurd (h.woken p.1 p.2 hp) (hq ▸ List.not_mem_nil)
    have hwaiting : E.queue.waiting = [] := by
      by_contra hne
      have hlen := h.fed hne
      rw [hwoken] at hlen
      exact he (List.eq_nil_of_length_eq_zero (Nat.le_zero.mp hlen))
    rw [DispatchQueue.line, hwoken, hwaiting]
    rfl
  refine ⟨hsize, fun w hw => ?_⟩
  cases hs : E.workerAt c w with
  | busy r => exact ⟨r, rfl, (h.manned c w r).mp hs⟩
  | looking => exact absurd (h.looking c w hs) (hq ▸ List.not_mem_nil)
  | idle => exact absurd ((h.idle c w).mp hs) (hline ▸ List.not_mem_nil)
  | stopped =>
    have hd' := h.stopped c w (hsize ▸ hw) hs
    rw [hd] at hd'
    cases hd'

/-- Have all workers of a crew stopped? -/
def Gone (E : Engine) (c : Nat) : Prop := c < E.crews.length ∧ ∀ w, E.workerAt c w = .stopped

/-- A crew that has stopped never works again. -/
theorem Gone.step (hg : E.Gone c) (h : E.Staffed) (hs : Step E E') : E'.Gone c := by
  obtain ⟨hc, hall⟩ := hg
  have hposts : ∀ {c' w' : Nat} {s : WorkerState}, E.Posts E' c' w' s →
      (E.workerAt c' w' = .stopped → s = .stopped) → E'.Gone c := by
    intro c' w' s hp hstay
    refine ⟨hp.crews ▸ hc, fun w => ?_⟩
    rw [hp.worker]
    split
    · next hcw =>
      obtain ⟨rfl, rfl⟩ := hcw
      exact hstay (hall w')
    · exact hall w
  cases hs.labour h with
  | attends ha =>
    refine ⟨ha.crews ▸ hc, fun w => ?_⟩
    rcases ha.worker c w with hx | ⟨⟨r, hb⟩, -⟩
    · exact hx.trans (hall w)
    · rw [hall w] at hb
      cases hb
  | enters he =>
    exact ⟨he.aside.crews ▸ hc, fun w => (he.workerAt c w).trans (hall w)⟩
  | works hw =>
    cases hw with
    | rests hl he hr hp => exact hposts hp id
    | waits hf he hr hp => exact hposts hp fun hx => absurd hx (not_stopped hf)
    | leaves hf hd he hr hp => exact hposts hp fun _ => rfl
    | hands hh hp => exact hposts hp fun hx => absurd hx (not_stopped hh.free)
  | hires hh =>
    refine ⟨by rw [hh.length]; omega, fun w => ?_⟩
    rw [hh.workerAt, if_neg fun hx => Nat.ne_of_lt hc hx.1]
    exact hall w
  | dismisses hd =>
    exact ⟨hd.length ▸ hc, fun w => (hd.workerAt (h.running _ hd.busy).1 c w).trans (hall w)⟩
  | answers ha =>
    exact ⟨ha.length ▸ hc, fun w => (ha.workerAt c w).trans (hall w)⟩

end Engine

end ReactiveRules
