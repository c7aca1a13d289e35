import ReactiveRules.Proofs.Dispatch.Moves

/-!
# `Proofs/Dispatch/Effects.lean` — what a move does

A move adds an entry or takes the next one away (`DispatchQueue.Deals`), and it changes the line of
those who wait by one waiter at most (`Station.Queues`). **`effect_play` says both of every move of a
sound station**, and that the station stays sound: exactly the waiters that have not ended stand in the
line, each once, and those who are called are those who wait though their signal has come.
-/

set_option autoImplicit false

namespace ReactiveRules.Station

variable {α : Type}

/-- What holds of those who wait. -/
structure Sound (s : Station α) : Prop where
  nodup : s.queue.line.Nodup
  line : ∀ n, n ∈ s.queue.line ↔ s.pending n = true
  called : ∀ n, n ∈ s.called ↔ s.pending n = true ∧ s.dismissed n = true

/-- What a move does to those who wait, with the waiters that begin to wait. -/
inductive Queues (s s' : Station α) : List Nat → Prop
  | same (hl : s'.queue.line = s.queue.line) (hp : ∀ m, s'.pending m = s.pending m) :
    Queues s s' []
  | joins (n : Nat) (hl : s'.queue.line = s.queue.line.erase n ++ [n])
    (hp : ∀ m, s'.pending m = (s.pending m || m == n)) : Queues s s' [n]
  | ends (n : Nat) (hl : s'.queue.line = s.queue.line.erase n)
    (hp : ∀ m, s'.pending m = (s.pending m && m != n)) : Queues s s' []

/-- What a move does: the offer it gets accepted, what it hands out, and who begins to wait. -/
structure Effect (s s' : Station α) (accepted : List (α × Int)) (handed : List α)
    (joined : List Nat) : Prop where
  deals : s.queue.Deals s'.queue accepted handed
  queues : s.Queues s' joined
  called : ∀ n, n ∈ s'.called ↔ s'.pending n = true ∧ s'.dismissed n = true
  fed : s.queue.Fed → s'.queue.Fed

/-- The line stays sound whoever joins or leaves it. -/
theorem Sound.effect {s s' : Station α} {accepted : List (α × Int)} {handed : List α}
    {joined : List Nat} (h : s.Sound) (he : s.Effect s' accepted handed joined) : s'.Sound := by
  have hmem : ∀ n m, m ∈ s.queue.line.erase n ↔ m ≠ n ∧ s.pending m = true := fun n m => by
    rw [h.nodup.mem_erase_iff, h.line]
  cases he.queues with
  | same hl hp =>
    exact ⟨hl ▸ h.nodup, fun m => by rw [hl, hp, h.line], he.called⟩
  | joins n hl hp =>
    refine ⟨?_, fun m => ?_, he.called⟩
    · rw [hl, List.nodup_append]
      refine ⟨h.nodup.erase n, List.nodup_singleton n, fun a ha b hb => ?_⟩
      rw [List.mem_singleton.mp hb]
      exact ((hmem n a).mp ha).1
    · rw [hl, hp, List.mem_append, hmem, List.mem_singleton, Bool.or_eq_true, beq_iff_eq]
      by_cases hm : m = n <;> simp [hm]
  | ends n hl hp =>
    refine ⟨hl ▸ h.nodup.erase n, fun m => ?_, he.called⟩
    rw [hl, hp, hmem, Bool.and_eq_true, bne_iff_ne, and_comm]

variable {s s' : Station α}

/-- A line in the order in which its members last began to wait stays so. -/
theorem Queues.line_eq {joined now : List Nat} (hq : s.Queues s' now)
    (hnodup : s.queue.line.Nodup) (h : s.queue.line = joined.dedup.filter s.pending) :
    s'.queue.line = (joined ++ now).dedup.filter s'.pending := by
  cases hq with
  | same hl hp =>
    rw [hl, h, List.append_nil]
    exact List.filter_congr fun m _ => (hp m).symm
  | joins n hl hp =>
    have hself : s'.pending n = true := by simp [hp]
    rw [hl, hnodup.erase_eq_filter, h, dedup_concat, List.filter_append, List.filter_filter,
      List.filter_filter]
    congr 1
    · refine List.filter_congr fun m _ => ?_
      rw [hp]
      cases hm : m == n <;> simp [bne, hm]
    · simp [hself]
  | ends n hl hp =>
    rw [hl, hnodup.erase_eq_filter, h, List.append_nil, List.filter_filter]
    refine List.filter_congr fun m _ => ?_
    rw [hp, Bool.and_comm]

/-! ## Moves that serve nobody -/

theorem gains_same (h : s'.finished = s.finished) : s.gains s' = [] := by simp [gains, h]

/-- A waiter that stays and whose signal has not changed is called if it was. -/
theorem Sound.called_same (h : s.Sound) (hw : s'.waiters = s.waiters)
    (hr : s'.raised = s.raised) (hd : s'.deserted = s.deserted) (hc : s'.called = s.called) :
    ∀ n, n ∈ s'.called ↔ s'.pending n = true ∧ s'.dismissed n = true := by
  intro n
  have hpend : s'.pending n = s.pending n := by unfold pending; rw [hw]
  have hdis : s'.dismissed n = s.dismissed n := by unfold dismissed signal?; rw [hw, hr, hd]
  rw [hc, hpend, hdis]
  exact h.called n

/-- Whatever only touches the memory of acceptances, the clock and the keepers. -/
theorem effect_idle (h : s.Sound) (accepted : List (α × Nat)) (now : Nat) (keepers : List Keeper) :
    s.Effect { s with now, keepers, queue := { s.queue with accepted } } [] [] [] :=
  ⟨.rest rfl rfl, .same rfl fun _ => rfl, h.called_same rfl rfl rfl rfl, fun hf => hf⟩

/-- Time passes for the clock, the keepers and what they forget. -/
theorem advance_eq (s : Station α) (ms : Nat) : ∃ accepted keepers, s.advance ms
    = { s with now := s.now + ms, keepers, queue := { s.queue with accepted } } := by
  have hfold : ∀ (ks : List Keeper) (t : Station α), ∃ accepted keepers,
      ks.foldl (pass (s.now + ms)) t = { t with keepers, queue := { t.queue with accepted } } := by
    intro ks
    induction ks with
    | nil => exact fun t => ⟨t.queue.accepted, t.keepers, rfl⟩
    | cons k rest ih =>
      intro t
      obtain ⟨accepted, keepers, hrest⟩ := ih (pass (s.now + ms) t k)
      refine ⟨accepted, keepers, hrest.trans ?_⟩
      unfold pass
      split <;> rfl
  obtain ⟨accepted, keepers, hall⟩ := hfold s.keepers { s with keepers := [] }
  refine ⟨accepted, keepers, ?_⟩
  show { s.keepers.foldl (pass (s.now + ms)) { s with keepers := [] } with now := s.now + ms } = _
  rw [hall]

theorem mem_heeding (s : Station α) (k n : Nat) :
    n ∈ s.heeding k ↔ s.pending n = true ∧ s.signal? n = some k := by
  unfold heeding
  rw [List.mem_filter, List.mem_range, Bool.and_eq_true, beq_iff_eq]
  refine ⟨fun h => h.2, fun h => ⟨?_, h⟩⟩
  obtain ⟨w, hw⟩ := getElem?_of_pending h.1
  exact (List.getElem?_eq_some_iff.mp hw).1

/-- A signal comes, in whichever of the two ways. -/
theorem effect_call (h : s.Sound) (k : Nat) {raised deserted : List Nat}
    (hin : ∀ j, j ∈ raised ∨ j ∈ deserted ↔ j = k ∨ j ∈ s.raised ∨ j ∈ s.deserted) :
    s.Effect ({ s with raised, deserted }.call k) [] [] [] := by
  refine ⟨.rest rfl rfl, .same rfl fun _ => rfl, fun n => ?_, fun hf => hf⟩
  have hheed : n ∈ heeding { s with raised, deserted } k
      ↔ s.pending n = true ∧ s.signal? n = some k := mem_heeding _ k n
  show n ∈ s.called ++ heeding { s with raised, deserted } k ↔ s.pending n = true
    ∧ dismissed { s with raised, deserted } n = true
  rw [List.mem_append, hheed, h.called]
  have hsig : signal? { s with raised, deserted } n = s.signal? n := rfl
  unfold dismissed
  rw [hsig]
  cases hs : s.signal? n with
  | none => simp
  | some j =>
    have hj := hin j
    simp only [Bool.or_eq_true, List.contains_iff_mem, Option.some.injEq] at hj ⊢
    rw [hj]
    tauto

theorem effect_raise (h : s.Sound) (k : Nat) : s.Effect (s.raise k).1 [] [] [] := by
  unfold raise
  split
  · exact effect_idle h s.queue.accepted s.now s.keepers
  · exact effect_call h k fun j => by simp only [List.mem_cons]; tauto

theorem finished_raise (s : Station α) (k : Nat) : (s.raise k).1.finished = s.finished := by
  unfold raise
  split <;> rfl

/-! ## The turn of a waiter -/

/-- How a turn goes: a waiter that was woken looks at the queue, one whose signal has come may give
up, and nobody else does anything. -/
inductive Turned (s : Station α) (n : Nat) : Station α → Prop
  | resumes {s' : Station α} (hw : n ∈ s.queue.woken) (h : s.Served n (s.queue.resume n) s') :
    Turned s n s'
  | givesUp {s' : Station α} (hn : n ∈ s.called) (hq : s'.queue = s.queue.abort n)
    (hc : s.Closes s' n none) : Turned s n s'
  | idle (hw : n ∉ s.queue.woken) (hc : n ∉ s.called) : Turned s n s

theorem Sound.pending_of_woken (h : s.Sound) {n : Nat} (hw : n ∈ s.queue.woken) :
    s.pending n = true := (h.line n).mp (List.mem_append_left _ hw)

theorem turned_turn (h : s.Sound) (n : Nat) (second : Bool) :
    s.Turned n (s.turn n second) := by
  unfold turn
  split
  · next hw =>
    have hmem : n ∈ s.queue.woken := by
      simp only [Bool.and_eq_true, List.contains_iff_mem] at hw
      exact hw.1
    exact .resumes hmem (served_served (h.pending_of_woken hmem) _)
  · next hstays =>
    split
    · next hc =>
      have hmem : n ∈ s.called := List.contains_iff_mem.mp hc
      exact .givesUp hmem (queue_giveUp s n) (closes_giveUp ((h.called n).mp hmem).1)
    · next hc =>
      have hcalled : n ∉ s.called := fun hin => hc (List.contains_iff_mem.mpr hin)
      -- one that was woken and does not look has been dismissed, and so has been called
      refine .idle (fun hw => hcalled ((h.called n).mpr ⟨h.pending_of_woken hw, ?_⟩)) hcalled
      cases hd : s.dismissed n with
      | true => rfl
      | false => exact absurd (by simp [hw, hd]) hstays

/-- Whoever ends is no longer called; the others are as before. -/
theorem Closes.called_iff {n : Nat} {got : Option α} (hc : s.Closes s' n got)
    (hcalled : ∀ m, m ≠ n → (m ∈ s.called ↔ s.pending m = true ∧ s.dismissed m = true)) :
    ∀ m, m ∈ s'.called ↔ s'.pending m = true ∧ s'.dismissed m = true := by
  intro m
  rw [hc.called, hc.pending, hc.dismissed, List.mem_filter, bne_iff_ne, Bool.and_eq_true,
    bne_iff_ne]
  by_cases hm : m = n
  · simp [hm]
  · simp only [ne_eq, hm, not_false_eq_true, and_true]
    exact hcalled m hm

theorem erase_append_self {xs : List Nat} {n : Nat} (h : n ∉ xs) : (xs ++ [n]).erase n = xs := by
  rw [List.erase_append_right _ h]
  simp

/-- A turn hands out what the waiter ends with. -/
theorem effect_turned {n : Nat} (h : s.Sound) (ht : s.Turned n s') :
    s.Effect s' [] (s.gains s')
      (if s.queue.woken.contains n && s'.pending n then [n] else []) := by
  cases ht with
  | resumes hw hs =>
    have hwoken : s.queue.woken.contains n = true := List.contains_iff_mem.mpr hw
    have hpend := h.pending_of_woken hw
    have hdeals := s.queue.deals_resume n
    have hline := s.queue.line_resume hw
    have hnotin : n ∉ s.queue.line.erase n := h.nodup.not_mem_erase
    cases hs with
    | @ends _ p hr hq hc =>
      have hleft : s'.pending n = false := by simp [hc.pending]
      rw [hr] at hdeals hline
      rw [hleft, Bool.and_false, hc.gains]
      refine ⟨?_, ?_, hc.called_iff fun m _ => h.called m, fun hf => ?_⟩
      · rw [hq]; exact hdeals
      · exact .ends n (by rw [hq]; exact hline) hc.pending
      · rw [hq]; exact hf.resume hw
    | givesUp hr hd hq hc =>
      have hleft : s'.pending n = false := by simp [hc.pending]
      rw [hr] at hdeals hline
      rw [hleft, Bool.and_false, hc.gains]
      refine ⟨?_, ?_, hc.called_iff fun m _ => h.called m, fun hf => ?_⟩
      · rw [hq]
        cases hdeals with
        | rest he hn =>
          exact ((s.queue.resume n).1.deals_abort n).of_entries he hn
      · refine .ends n ?_ hc.pending
        rw [hq, DispatchQueue.line_abort, hline]
        exact erase_append_self hnotin
      · rw [hq]; exact (hf.resume hw).abort n
    | waits hr hd =>
      have hstays : pending { s with queue := (s.queue.resume n).1 } n = true := hpend
      have hnothing : s.gains { s with queue := (s.queue.resume n).1 } = [] := gains_same rfl
      rw [hr] at hdeals hline
      rw [hstays, hwoken, hnothing]
      refine ⟨hdeals, .joins n hline fun m => ?_, h.called_same rfl rfl rfl rfl,
        fun hf => hf.resume hw⟩
      show s.pending m = (s.pending m || m == n)
      by_cases hm : m = n <;> simp [hm, hpend]
  | givesUp hn hq hc =>
    have hleft : s'.pending n = false := by simp [hc.pending]
    rw [hleft, Bool.and_false, hc.gains]
    refine ⟨?_, ?_, hc.called_iff fun m _ => h.called m, fun hf => ?_⟩
    · rw [hq]; exact s.queue.deals_abort n
    · exact .ends n (by rw [hq, DispatchQueue.line_abort]) hc.pending
    · rw [hq]; exact hf.abort n
  | idle hw hc =>
    have hnot : s.queue.woken.contains n = false := by simpa using hw
    simp only [hnot, Bool.false_and, Bool.false_eq_true, if_false, gains_same rfl]
    exact ⟨.rest rfl rfl, .same rfl fun _ => rfl, h.called, fun hf => hf⟩

/-! ## Waiters that start and waiters that are cancelled -/

theorem pending_enter (s : Station α) (name : String) (heeds : Option Nat) (m : Nat) :
    (s.enter name heeds).pending m = (s.pending m || m == s.waiters.length) := by
  unfold pending enter
  by_cases hm : m = s.waiters.length
  · simp [hm]
  · rcases Nat.lt_or_gt_of_ne hm with hlt | hgt
    · simp [hm, List.getElem?_append_left hlt]
    · have hnone : s.waiters[m]? = none := List.getElem?_eq_none (by omega)
      have hnone' : (s.waiters ++ [({ name, heeds } : Waiter)])[m]? = none :=
        List.getElem?_eq_none (by simp; omega)
      simp [hm, hnone, hnone']

theorem dismissed_enter (s : Station α) (name : String) (heeds : Option Nat) {m : Nat}
    (hm : s.pending m = true) : (s.enter name heeds).dismissed m = s.dismissed m := by
  obtain ⟨w, hw⟩ := getElem?_of_pending hm
  have hlt : m < s.waiters.length := (List.getElem?_eq_some_iff.mp hw).1
  unfold dismissed signal? enter
  simp only [List.getElem?_append_left hlt]

@[simp] theorem not_pending_length (s : Station α) : s.pending s.waiters.length = false := by
  simp [pending]

/-- Whatever a newcomer ends with, the others are as they were. -/
theorem pending_closes_enter {name : String} {who : Option Nat} {got : Option α}
    (hc : (s.enter name who).Closes s' s.waiters.length got) (m : Nat) :
    s'.pending m = s.pending m := by
  rw [hc.pending, pending_enter]
  by_cases hm : m = s.waiters.length
  · subst hm
    simp
  · have hb : (m == s.waiters.length) = false := by simpa using hm
    simp [bne, hb]

theorem Sound.called_enter (h : s.Sound) (name : String) (who : Option Nat) {m : Nat}
    (hm : m ≠ s.waiters.length) : m ∈ (s.enter name who).called
      ↔ (s.enter name who).pending m = true ∧ (s.enter name who).dismissed m = true := by
  have hpend : (s.enter name who).pending m = s.pending m := by simp [pending_enter, hm]
  rw [hpend, show (s.enter name who).called = s.called from rfl, h.called]
  exact and_congr_right fun hp => by rw [dismissed_enter s name who hp]

theorem Sound.length_not_mem (h : s.Sound) : s.waiters.length ∉ s.queue.line := fun hin => by
  have hp := (h.line _).mp hin
  rw [s.not_pending_length] at hp
  cases hp

/-- A newcomer ends without having waited. -/
theorem effect_closes_enter (h : s.Sound) {name : String} {who : Option Nat} {got : Option α}
    (hc : (s.enter name who).Closes s' s.waiters.length got)
    (hline : s'.queue.line = s.queue.line) (hdeals : s.queue.Deals s'.queue [] got.toList)
    (hfed : s.queue.Fed → s'.queue.Fed) :
    s.Effect s' [] (s.gains s')
      (if s'.pending s.waiters.length then [s.waiters.length] else []) := by
  have hleft : s'.pending s.waiters.length = false := by
    rw [pending_closes_enter hc, s.not_pending_length]
  have hgot : s.gains s' = got.toList := hc.gains
  rw [hleft, hgot]
  exact ⟨hdeals, .same hline (pending_closes_enter hc),
    hc.called_iff fun m hm => h.called_enter name who hm, hfed⟩

/-- The first turn of a newcomer. -/
theorem effect_served_enter (h : s.Sound) {name : String} {who : Option Nat}
    (hs : (s.enter name who).Served s.waiters.length (s.queue.take s.waiters.length) s') :
    s.Effect s' [] (s.gains s')
      (if s'.pending s.waiters.length then [s.waiters.length] else []) := by
  have hdeals := s.queue.deals_take s.waiters.length
  have hline := s.queue.line_take s.waiters.length
  have hnotin := h.length_not_mem
  cases hs with
  | ends hr hq hc =>
    rw [hr] at hdeals hline
    refine effect_closes_enter h hc ?_ ?_ fun hf => ?_
    · rw [hq]; exact hline
    · rw [hq]; exact hdeals
    · rw [hq]; exact hf.take _
  | givesUp hr hd hq hc =>
    rw [hr] at hdeals hline
    refine effect_closes_enter h hc ?_ ?_ fun hf => ?_
    · rw [hq, DispatchQueue.line_abort, hline]
      exact erase_append_self hnotin
    · rw [hq]
      cases hdeals with
      | rest he hn => exact ((s.queue.take _).1.deals_abort _).of_entries he hn
    · rw [hq]; exact (hf.take _).abort _
  | waits hr hd =>
    rw [hr] at hdeals hline
    set a := s.enter name who with ha
    have hpend : ∀ m, pending { a with queue := (s.queue.take s.waiters.length).1 } m
        = (s.pending m || m == s.waiters.length) := s.pending_enter name who
    have hnew : pending { a with queue := (s.queue.take s.waiters.length).1 } s.waiters.length
        = true := by rw [hpend]; simp
    have hnothing : s.gains { a with queue := (s.queue.take s.waiters.length).1 } = [] :=
      gains_same rfl
    rw [hnew, if_pos rfl, hnothing]
    refine ⟨hdeals, .joins _ ?_ hpend, fun m => ?_, fun hf => hf.take _⟩
    · rw [List.erase_of_not_mem hnotin]
      exact hline
    · by_cases hm : m = s.waiters.length
      · -- the newcomer has not been called, and waits because it has not been dismissed
        have hcalled : s.waiters.length ∉ s.called := fun hin => by
          have hp := ((h.called _).mp hin).1
          rw [s.not_pending_length] at hp
          cases hp
        have hstays : a.dismissed s.waiters.length ≠ true := by simp [hd]
        subst hm
        exact ⟨fun hin => absurd hin hcalled, fun hp => absurd hp.2 hstays⟩
      · exact h.called_enter name who hm

/-- A waiter that starts ends at once, or takes its first turn at the queue. -/
theorem start_cases (s : Station α) (name : String) (heeds : Bool) (signal : Nat)
    (second : Bool) :
    ∃ who : Option Nat,
      s.start name heeds signal second = (s.enter name who).finish s.waiters.length none ∨
      s.start name heeds signal second
        = (s.enter name who).served s.waiters.length (s.queue.take s.waiters.length) :=
  ⟨if heeds then some signal else none, ite_eq_or_eq _ _ _⟩

theorem effect_start (h : s.Sound) (name : String) (heeds : Bool) (signal : Nat)
    (second : Bool) :
    s.Effect (s.start name heeds signal second) []
      (s.gains (s.start name heeds signal second))
      (if (s.start name heeds signal second).pending s.waiters.length then [s.waiters.length]
        else []) := by
  obtain ⟨who, hs⟩ := s.start_cases name heeds signal second
  have hwaits : (s.enter name who).pending s.waiters.length = true := by simp [pending_enter]
  rcases hs with hs | hs
  · rw [hs]
    have hq := (s.enter name who).queue_finish s.waiters.length none
    refine effect_closes_enter h (closes_finish hwaits none) ?_ ?_ ?_
    · rw [hq]; rfl
    · rw [hq]; exact .rest rfl rfl
    · rw [hq]; exact fun hf => hf
  · rw [hs]
    exact effect_served_enter h (served_served hwaits _)

theorem effect_abort (h : s.Sound) (name : String) : s.Effect (s.abort name).1 [] [] [] := by
  have hnames : ∀ names, s.Effect { s with names } [] [] [] := fun names =>
    ⟨.rest rfl rfl, .same rfl fun _ => rfl, h.called_same rfl rfl rfl rfl, fun hf => hf⟩
  unfold abort
  split
  · exact hnames s.names
  · next n _ =>
    simp only
    split
    · have hc : ∀ m, m ∈ s.called.filter (· != n)
          ↔ m ∈ s.called ∧ m ≠ n := fun m => by simp
      refine ⟨s.queue.deals_abort n, .ends n (s.queue.line_abort n) ?_, fun m => ?_,
        fun hf => hf.abort n⟩
      · exact s.pending_close n
      · show m ∈ s.called.filter (· != n) ↔ (s.close n).pending m = true
          ∧ (s.close n).dismissed m = true
        rw [hc, h.called, pending_close, dismissed_close, Bool.and_eq_true, bne_iff_ne]
        tauto
    · exact hnames _

theorem finished_abort (s : Station α) (name : String) :
    (s.abort name).1.finished = s.finished := by
  unfold abort
  split
  · rfl
  · simp only
    split <;> rfl

/-! ## Every move -/

/-- A move at which nobody ends hands out what it polls. -/
theorem hands_of_finished [BEq α] {m : Move α} (h : (s.play m).finished = s.finished) :
    s.hands m = s.polls m := by
  rw [hands, gains_same h, List.append_nil]

theorem effect_play [BEq α] (h : s.Sound) (m : Move α) :
    s.Effect (s.play m) (s.accepts m) (s.hands m) (s.joins m) := by
  cases m with
  | offer p priority =>
    rw [hands_of_finished rfl]
    exact ⟨s.queue.deals_offer s.now p priority,
      .same (s.queue.line_offer s.now p priority) fun _ => rfl,
      h.called_same rfl rfl rfl rfl, fun hf => hf.offer s.now p priority⟩
  | poll =>
    rw [hands_of_finished rfl]
    exact ⟨s.queue.deals_poll, .same s.queue.line_poll fun _ => rfl,
      h.called_same rfl rfl rfl rfl, fun hf => hf.poll⟩
  | start name heeds signal second => exact effect_start h name heeds signal second
  | abort name =>
    have hquiet : (s.play (.abort name)).finished = s.finished := s.finished_abort name
    rw [hands_of_finished hquiet]
    exact effect_abort h name
  | raise k =>
    have hquiet : (s.play (.raise k)).finished = s.finished := s.finished_raise k
    rw [hands_of_finished hquiet]
    exact effect_raise h k
  | leave k =>
    rw [hands_of_finished rfl]
    exact effect_call h k fun j => by simp only [List.mem_cons]; tauto
  | cleanUp =>
    rw [hands_of_finished rfl]
    exact effect_idle h _ s.now s.keepers
  | keep period =>
    rw [hands_of_finished rfl]
    exact effect_idle h s.queue.accepted s.now _
  | stopKeeper =>
    rw [hands_of_finished rfl]
    exact effect_idle h s.queue.accepted s.now _
  | advance ms =>
    obtain ⟨accepted, keepers, heq⟩ := s.advance_eq ms
    have hplay : s.play (.advance ms) = _ := heq
    rw [hands_of_finished (by rw [hplay]), hplay]
    exact effect_idle h accepted _ keepers
  | turn n second => exact effect_turned h (turned_turn h n second)

end ReactiveRules.Station
