import ReactiveRules.Proofs.Dispatch.Conservation

/-!
# `Proofs/Dispatch/Waking.lean` — no waking is lost

**When nobody can take a turn, nobody waits for an entry that is there**, or for a signal that has come
(`Ledger.Balanced.quiet`); and turns lead there in any order, because each leaves fewer who can take one
(`Turned.length_ready`).

The order in which waiters are served is that of the line. It is the order in which they *last* began to
wait: an entry is kept for nobody, and a waiter that is woken and finds it gone begins anew.
-/

set_option autoImplicit false

namespace ReactiveRules

namespace DispatchQueue

variable {α ω : Type}

theorem length_woken_notify (q : DispatchQueue α ω) :
    q.notify.woken.length ≤ q.woken.length + 1 := by
  unfold notify
  split <;> simp

@[simp] theorem woken_take (q : DispatchQueue α ω) (w : ω) : (q.take w).1.woken = q.woken := by
  rcases q.take_cases w with ⟨e, -, hq⟩ | ⟨-, hq⟩ <;> rw [hq]

theorem woken_resume [BEq ω] (q : DispatchQueue α ω) (w : ω) :
    (q.resume w).1.woken = q.woken.erase w := woken_take _ w

theorem length_woken_abort [BEq ω] [LawfulBEq ω] (q : DispatchQueue α ω) (w : ω) :
    (q.abort w).woken.length ≤ q.woken.length := by
  unfold abort
  split
  · next hw =>
    have hmem : w ∈ q.woken := by simpa using hw
    have hlen : (q.woken.erase w).length = q.woken.length - 1 := List.length_erase_of_mem hmem
    have hpos : 0 < q.woken.length := List.length_pos_of_mem hmem
    refine Nat.le_trans (length_woken_notify _) ?_
    show (q.woken.erase w).length + 1 ≤ q.woken.length
    omega
  · exact Nat.le_refl _

/-- An accepted offer wakes the first of the line that has not been woken. -/
theorem woken_offer [BEq α] {q : DispatchQueue α ω} {now : Nat} {p : α} {priority : Int}
    (h : (q.offer now p priority).2 = true) :
    (q.offer now p priority).1.woken = q.line.take (q.woken.length + 1) := by
  unfold offer at h ⊢
  split at h
  · cases h
  · next hs =>
    rw [if_neg hs]
    cases hq : q.waiting with
    | nil =>
      have hall : q.woken.take (q.woken.length + 1) = q.woken :=
        List.take_of_length_le (Nat.le_succ _)
      simp [accept, notify, line, hq, hall]
    | cons w rest =>
      have hall : q.woken.take (q.woken.length + 1) = q.woken :=
        List.take_of_length_le (Nat.le_succ _)
      simp [accept, notify, line, hq, List.take_append, hall]

end DispatchQueue

namespace Station

variable {α : Type} {s s' : Station α} {n : Nat}

/-! ## Turns come to an end -/

theorem Closes.length_called {got : Option α} (hc : s.Closes s' n got) :
    s'.called.length ≤ s.called.length := by
  rw [hc.called]
  exact List.length_filter_le _ _

/-- Every turn leaves fewer who can take one. -/
theorem Turned.length_ready (h : s.Turned n s') (hn : n ∈ s.ready) :
    s'.ready.length < s.ready.length := by
  simp only [ready, List.length_append]
  cases h with
  | resumes hw hs =>
    have hwoken : (s.queue.resume n).1.woken.length = s.queue.woken.length - 1 := by
      rw [DispatchQueue.woken_resume, List.length_erase_of_mem hw]
    have hpos : 0 < s.queue.woken.length := List.length_pos_of_mem hw
    cases hs with
    | ends hr hq hc =>
      have hcalled := hc.length_called
      rw [hq]
      omega
    | givesUp hr hd hq hc =>
      have hcalled := hc.length_called
      have habort := (s.queue.resume n).1.length_woken_abort n
      rw [hq]
      omega
    | waits hr hd =>
      show s.called.length + (s.queue.resume n).1.woken.length < _
      omega
  | givesUp hmem hq hc =>
    have hcalled : s'.called.length < s.called.length := by
      rw [hc.called]
      exact List.length_filter_lt_length_iff_exists.mpr ⟨n, hmem, by simp⟩
    have habort := s.queue.length_woken_abort n
    rw [hq]
    omega
  | idle hw hc =>
    rcases List.mem_append.mp hn with hmem | hmem
    · exact absurd hmem hc
    · exact absurd hmem hw

theorem Sound.turn (h : s.Sound) (n : Nat) (second : Bool) : (s.turn n second).Sound :=
  h.effect (effect_turned h (turned_turn h n second))

/-- A turn is taken unless nobody can take one. -/
theorem Sound.step (h : s.Sound) :
    s.step.Sound ∧ (s.ready = [] ∧ s.step = s ∨ s.step.ready.length < s.ready.length) := by
  unfold Station.step
  cases hr : s.ready with
  | nil => exact ⟨h, .inl ⟨rfl, rfl⟩⟩
  | cons m rest =>
    have hm : m ∈ s.ready := by simp [hr]
    have hlt := (turned_turn h m false).length_ready hm
    rw [hr] at hlt
    exact ⟨h.turn m false, .inr hlt⟩

/-- **When a station has settled, nobody can take a turn.** -/
theorem Sound.ready_settle (h : s.Sound) : s.settle.ready = [] := by
  have hall : ∀ (xs : List Nat) (t : Station α), t.Sound → t.ready.length ≤ xs.length →
      (xs.foldl (fun t _ => t.step) t).ready = [] := by
    intro xs
    induction xs with
    | nil => exact fun t _ hlen => List.length_eq_zero_iff.mp (Nat.le_zero.mp hlen)
    | cons x rest ih =>
      intro t ht hlen
      obtain ⟨hsound, hstep⟩ := ht.step
      refine ih t.step hsound ?_
      rcases hstep with ⟨hnil, hsame⟩ | hlt
      · rw [hsame, hnil]
        exact Nat.zero_le _
      · rw [List.length_cons] at hlen
        omega
  exact hall _ s h (by simp)

/-! ## Who waits, and who is served -/

/-- Whoever is handed something at a turn had been woken. -/
theorem Turned.woken_of_gains (h : s.Turned n s') (hg : s.gains s' ≠ []) :
    n ∈ s.queue.woken := by
  cases h with
  | resumes hw hs => exact hw
  | givesUp hn hq hc => exact absurd hc.gains hg
  | idle hw hc => exact absurd (gains_same rfl) hg

namespace Ledger

variable [BEq α] {L : Ledger α}

omit [BEq α] in
/-- Whoever still waits when nobody can take a turn found the queue empty, and its signal has not
come. -/
theorem Balanced.quiet (h : L.Balanced) (hr : L.station.ready = []) {n : Nat}
    (hn : L.station.pending n = true) :
    L.station.queue.size = 0 ∧ L.station.dismissed n = false := by
  obtain ⟨hcalled, hwoken⟩ := List.append_eq_nil_iff.mp hr
  constructor
  · have hline := (h.sound.line n).mpr hn
    rw [DispatchQueue.line, hwoken, List.nil_append] at hline
    have hle := h.fed (List.ne_nil_of_mem hline)
    rw [hwoken] at hle
    exact Nat.le_zero.mp hle
  · cases hd : L.station.dismissed n with
    | false => rfl
    | true =>
      have hin := (h.sound.called n).mpr ⟨hn, hd⟩
      rw [hcalled] at hin
      cases hin

/-- Whoever is handed something at a turn has been woken, and so has everyone before it in the line; if it
was woken first, nobody is before it. -/
theorem Balanced.first_of_hands (h : L.Balanced) {n : Nat} {second : Bool}
    (hh : L.station.hands (.turn n second) ≠ []) :
    ∃ pre post, L.station.queue.line = pre ++ n :: post ∧ pre ⊆ L.station.queue.woken ∧
      (L.station.queue.woken.head? = some n → pre = []) := by
  have hwoken : n ∈ L.station.queue.woken :=
    (turned_turn h.sound n second).woken_of_gains hh
  obtain ⟨pre, post, hs⟩ := List.append_of_mem hwoken
  refine ⟨pre, post ++ L.station.queue.waiting, ?_, ?_, fun hhead => ?_⟩
  · rw [DispatchQueue.line, hs]
    simp
  · rw [hs]
    exact List.subset_append_left _ _
  · have hnodup : (pre ++ n :: post).Nodup := hs ▸ h.sound.nodup.of_append_left
    rw [hs] at hhead
    cases pre with
    | nil => rfl
    | cons m rest =>
      cases hhead
      simp at hnodup

/-- **No waking is lost, and the line decides who is served.** When nobody can take a turn, whoever still
waits found the queue empty and its signal has not come. The line of those who wait, woken or not, is in
the order in which they last began to wait; an accepted offer wakes the first that has not been woken;
and whoever is handed something at a turn comes in the line after none that has not been woken too. -/
theorem no_waking_lost_and_served_in_line (window : Nat) (ms : List (Move α)) :
    let L := (ofWindow window : Ledger α).after ms
    let s := L.station
    let line := s.queue.woken ++ s.queue.waiting
    (s.ready = [] → ∀ n, s.pending n = true → s.queue.size = 0 ∧
      ∀ k, s.signal? n = some k → k ∉ s.raised ∧ k ∉ s.deserted) ∧
    line = L.joined.dedup.filter s.pending ∧
    (∀ p priority, (s.offer p priority).2 = true →
      (s.offer p priority).1.queue.woken = line.take (s.queue.woken.length + 1)) ∧
    ∀ n second, s.hands (.turn n second) ≠ [] →
      ∃ pre post, line = pre ++ n :: post ∧ pre ⊆ s.queue.woken ∧
        (s.queue.woken.head? = some n → pre = []) := by
  intro L s line
  have h : L.Balanced := balanced window ms
  refine ⟨fun hr n hn => ?_, h.lined, fun p priority hp => ?_, fun n second hh => ?_⟩
  · obtain ⟨hsize, hd⟩ := h.quiet hr hn
    refine ⟨hsize, fun k hk => ?_⟩
    have hk' : L.station.signal? n = some k := hk
    unfold dismissed at hd
    rw [hk'] at hd
    simpa using hd
  · exact DispatchQueue.woken_offer hp
  · exact h.first_of_hands hh

/-- Two waiters wait from the start, one after the other, and the second is served while the first still
waits: a newcomer has taken the entry that the first was woken for, so that the first began to wait
anew. -/
theorem later_waiter_served_first :
    let L := (ofWindow 0 : Ledger Nat).after
      [.start "a" false 0 false, .start "b" false 0 false, .offer 1 0, .start "c" false 0 false,
        .turn 0 false, .offer 2 0]
    L.joined = [0, 1, 0] ∧ L.station.pending 0 = true ∧ L.station.pending 1 = true ∧
      L.station.ready = [1] ∧
      (L.play (.turn 1 false)).station.finished = [("c", some 1), ("b", some 2)] ∧
      (L.play (.turn 1 false)).station.pending 0 = true := by decide +kernel

end Ledger

end Station

end ReactiveRules
