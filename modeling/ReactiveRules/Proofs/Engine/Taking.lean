import Mathlib.Tactic.IntervalCases
import ReactiveRules.Proofs.Engine.Crews
import ReactiveRules.Proofs.Engine.Reach

/-!
# `Proofs/Engine/Taking.lean` — what becomes of dispatches

An accepted dispatch is known by its place in the order of acceptance. **Along every course of an
engine each of them is either still in the queue or has been taken once, by one worker, which handed
it to one run of the instance in force or dropped it** (`Engine.Trail.dispatches_conserved`).
Stopping takes nothing from the queue, and whoever has stopped takes nothing more; but a crew that
was hired before the stop of another was answered goes on (`Engine.taken_after_stop`).
-/

set_option autoImplicit false

namespace ReactiveRules

open DispatchQueue (least?)

namespace Engine

variable {E E' : Engine} {c w c' w' : Nat} {e e' : QueueEntry Trigger}

/-! ## What comes in and goes out -/

theorem Enters.entries (h : E.Enters E' e) : E'.queue.entries = E.queue.entries ++ [e] := by
  have he : (⟨e.payload, e.priority, E.queue.nextOrder⟩ : QueueEntry Trigger) = e := by
    rw [← h.order]
  rw [h.queue, DispatchQueue.accept, DispatchQueue.entries_notify, he]

theorem Enters.nextOrder (h : E.Enters E' e) : E'.queue.nextOrder = E.queue.nextOrder + 1 := by
  rw [h.queue, DispatchQueue.accept, DispatchQueue.nextOrder_notify]

/-- **A dispatch is accepted exactly if its trigger enters the queue.** -/
theorem accepted_iff (E : Engine) (t : Trigger) :
    (E.dispatch t).2 = .ok true ↔ ∃ e, e.payload = t ∧ E.Enters (E.dispatch t).1 e := by
  rcases E.dispatch_cases t with ⟨e, ht, ha, he⟩ | ⟨hn, ha⟩
  · exact ⟨fun _ => ⟨e, ht, he⟩, fun _ => ha⟩
  · refine ⟨fun h => absurd h hn, ?_⟩
    rintro ⟨e, -, he⟩
    have hnext := he.nextOrder
    rw [ha.queue] at hnext
    omega

/-- A step hands out one entry at most, and to one worker. -/
theorem Hands.unique (h : E.Hands E' c w e) (h' : E.Hands E' c' w' e') :
    c = c' ∧ w = w' ∧ e = e' := by
  obtain rfl : e = e' := Option.some.inj (h.next.symm.trans h'.next)
  cases hn : E.registry.number? e.payload.rule with
  | none =>
    have hj := (h.drop hn).2.2.2.symm.trans (h'.drop hn).2.2.2
    obtain ⟨rfl, rfl⟩ : c = c' ∧ w = w' := by simpa using hj
    exact ⟨rfl, rfl, rfl⟩
  | some n =>
    have hr := (h.run n hn).1.symm.trans (h'.run n hn).1
    obtain ⟨rfl, rfl⟩ : c = c' ∧ w = w' := by simpa using hr
    exact ⟨rfl, rfl, rfl⟩

/-- An entry comes in, a worker is handed one, or neither, and then no run begins for a worker. -/
inductive Passes (E E' : Engine) : Prop
  | rests (he : E'.queue.entries = E.queue.entries) (hn : E'.queue.nextOrder = E.queue.nextOrder)
    (hr : ∀ r c w, (E'.runAt r).client = .worker c w ↔ (E.runAt r).client = .worker c w)
  | enters {e : QueueEntry Trigger} (h : E.Enters E' e)
  | hands {c w : Nat} {e : QueueEntry Trigger} (h : E.Hands E' c w e)
    (hn : E'.queue.nextOrder = E.queue.nextOrder)

theorem Labour.passes (h : E.Labour E') : E.Passes E' := by
  have hsame : E'.runs = E.runs → ∀ r c w,
      (E'.runAt r).client = .worker c w ↔ (E.runAt r).client = .worker c w := fun hr r c w => by
    rw [runAt, hr]
    rfl
  cases h with
  | attends ha =>
    obtain ⟨a, -, hq⟩ := ha.queue
    exact .rests (by rw [hq]) (by rw [hq]) ha.client
  | enters he => exact .enters he
  | works hw =>
    cases hw with
    | rests hl he hr hp => exact .rests he hp.nextOrder (hsame hr)
    | waits hf he hr hp => exact .rests he hp.nextOrder (hsame hr)
    | leaves hf hd he hr hp => exact .rests he hp.nextOrder (hsame hr)
    | hands hh hp => exact .hands hh hp.nextOrder
  | hires hh => exact .rests (by rw [hh.queue]) (by rw [hh.queue]) (hsame hh.runs)
  | dismisses hd => exact .rests (by rw [hd.queue]) (by rw [hd.queue]) (hsame hd.runs)
  | answers ha => exact .rests (by rw [ha.queue]) (by rw [ha.queue]) (hsame ha.runs)

/-- Entries are in the order of acceptance, and no number is used twice. -/
structure Filed (E : Engine) : Prop where
  ordered : E.queue.Ordered
  lt : ∀ e ∈ E.queue.entries, e.order < E.queue.nextOrder

theorem Filed.passes (h : E.Filed) (hp : E.Passes E') : E'.Filed := by
  cases hp with
  | rests he hn =>
    refine ⟨?_, ?_⟩
    · rw [DispatchQueue.Ordered, he]
      exact h.ordered
    · rw [he, hn]
      exact h.lt
  | @enters e he =>
    refine ⟨?_, fun f hf => ?_⟩
    · rw [DispatchQueue.Ordered, he.entries, List.pairwise_append]
      refine ⟨h.ordered, List.pairwise_singleton _ _, fun f hf g hg => ?_⟩
      rw [List.mem_singleton.mp hg, he.order]
      exact h.lt f hf
    · rw [he.nextOrder]
      rcases List.mem_append.mp (he.entries ▸ hf) with hf | hf
      · exact Nat.lt_succ_of_lt (h.lt f hf)
      · rw [List.mem_singleton.mp hf, he.order]
        exact Nat.lt_succ_self _
  | hands hh hn =>
    refine ⟨?_, fun f hf => ?_⟩
    · rw [DispatchQueue.Ordered, hh.entries]
      exact h.ordered.sublist List.filter_sublist
    · rw [hn]
      exact h.lt f (List.mem_of_mem_filter (hh.entries ▸ hf))

theorem Passes.nextOrder_le (h : E.Passes E') : E.queue.nextOrder ≤ E'.queue.nextOrder := by
  cases h with
  | rests he hn => exact Nat.le_of_eq hn.symm
  | enters he => exact he.nextOrder ▸ Nat.le_succ _
  | hands hh hn => exact Nat.le_of_eq hn.symm

theorem Hands.mem (h : E.Hands E' c w e) : e ∈ E.queue.entries := DispatchQueue.least?_mem h.next

theorem Hands.not_mem (h : E.Hands E' c w e) : e ∉ E'.queue.entries := by
  rw [h.entries, List.mem_filter]
  exact fun hm => by simp at hm

/-- What is in the queue after a step was there before and has not been handed out, or has come in.
-/
theorem Filed.mem_iff (h : E.Filed) (hp : E.Passes E') (f : QueueEntry Trigger) :
    f ∈ E'.queue.entries ↔
      f ∈ E.queue.entries ∧ (∀ c w, ¬ E.Hands E' c w f) ∨ E.Enters E' f := by
  -- nothing is handed out in a step that leaves what is in the queue there
  have hkeep : E.queue.entries ⊆ E'.queue.entries → ∀ c w, ¬ E.Hands E' c w f :=
    fun hsub c w hh => hh.not_mem (hsub hh.mem)
  cases hp with
  | rests he hn =>
    have hno : ¬ E.Enters E' f := fun hf => by
      have := hf.nextOrder
      omega
    rw [he]
    exact ⟨fun hf => .inl ⟨hf, hkeep (he ▸ List.Subset.refl _)⟩,
      fun hf => hf.elim And.left fun hf => absurd hf hno⟩
  | @enters e he =>
    have hself : E.Enters E' f ↔ f = e := by
      refine ⟨fun hf => ?_, fun hf => hf ▸ he⟩
      simpa using hf.entries.symm.trans he.entries
    have hsub : E.queue.entries ⊆ E'.queue.entries := he.entries ▸ List.subset_append_left _ _
    rw [hself, he.entries, List.mem_append, List.mem_singleton]
    exact or_congr_left ⟨fun hf => ⟨hf, hkeep hsub⟩, And.left⟩
  | @hands c w e hh hn =>
    have hno : ¬ E.Enters E' f := fun hf => by
      have := hf.nextOrder
      omega
    have hself : (∀ c w, ¬ E.Hands E' c w f) ↔ f ≠ e :=
      ⟨fun hall hf => hall c w (hf ▸ hh), fun hne _ _ hf => hne (hf.unique hh).2.2⟩
    rw [hself, hh.entries, List.mem_filter]
    constructor
    · rintro ⟨hf, hne⟩
      exact .inl ⟨hf, fun he => by simp [he] at hne⟩
    · rintro (⟨hf, hne⟩ | hf)
      · exact ⟨hf, by simpa using fun ho => hne (h.ordered.eq_of_order_eq hf hh.mem ho)⟩
      · exact absurd hf hno

/-! ## Along a course -/

namespace Trail

variable {E : Nat → Engine} {last k : Nat} {c w c' w' : Nat} {e e' : QueueEntry Trigger}

theorem staffed (h : Trail E last) (hk : k ≤ last) : (E k).Staffed := (h.reachable hk).staffed

theorem passes (h : Trail E last) (hk : k < last) : (E k).Passes (E (k + 1)) :=
  ((h.step k hk).labour (h.staffed (Nat.le_of_lt hk))).passes

theorem filed (h : Trail E last) (hk : k ≤ last) : (E k).Filed := by
  induction k with
  | zero =>
    obtain ⟨_, _, _, _, _, _, hE⟩ := h.fresh
    rw [hE]
    exact ⟨List.Pairwise.nil, nofun⟩
  | succ k ih => exact (ih (Nat.le_of_succ_le hk)).passes (h.passes hk)

theorem nextOrder_le (h : Trail E last) {i j : Nat} (hij : i ≤ j) (hj : j ≤ last) :
    (E i).queue.nextOrder ≤ (E j).queue.nextOrder := by
  induction hij with
  | refl => exact Nat.le_refl _
  | @step j _ ih => exact Nat.le_trans (ih (Nat.le_of_succ_le hj)) (h.passes hj).nextOrder_le

/-- What is in the queue has been accepted, and not handed out. -/
theorem mem_entries_iff (h : Trail E last) (hk : k ≤ last) (e : QueueEntry Trigger) :
    e ∈ (E k).queue.entries ↔ (∃ i < k, (E i).Enters (E (i + 1)) e) ∧
      ∀ j < k, ∀ c w, ¬ (E j).Hands (E (j + 1)) c w e := by
  induction k with
  | zero =>
    obtain ⟨_, _, _, _, _, _, hE⟩ := h.fresh
    rw [hE]
    exact ⟨nofun, fun hx => absurd hx.1.choose_spec.1 (Nat.not_lt_zero _)⟩
  | succ k ih =>
    have hk' := Nat.le_of_succ_le hk
    rw [(h.filed hk').mem_iff (h.passes hk), ih hk']
    constructor
    · rintro (⟨⟨⟨i, hi, he⟩, hno⟩, hno'⟩ | he)
      · refine ⟨⟨i, Nat.lt_succ_of_lt hi, he⟩, fun j hj => ?_⟩
        rcases Nat.lt_succ_iff_lt_or_eq.mp hj with hj | rfl
        · exact hno j hj
        · exact hno'
      -- what has just come in has a number that nothing had before
      · refine ⟨⟨k, Nat.lt_succ_self k, he⟩, fun j hj c w hh => ?_⟩
        have hlt := (h.filed (by omega : j ≤ last)).lt e hh.mem
        have hle := h.nextOrder_le (Nat.le_of_lt_succ hj) hk'
        rw [he.order] at hlt
        omega
    · rintro ⟨⟨i, hi, he⟩, hno⟩
      rcases Nat.lt_succ_iff_lt_or_eq.mp hi with hi | rfl
      · exact .inl ⟨⟨⟨i, hi, he⟩, fun j hj => hno j (Nat.lt_succ_of_lt hj)⟩,
          hno k (Nat.lt_succ_self k)⟩
      · exact .inr he

/-- Nothing is handed out before it has come in. -/
theorem entered_before (h : Trail E last) {i j : Nat} (hi : i < last) (hj : j < last)
    (he : (E i).Enters (E (i + 1)) e) (hh : (E j).Hands (E (j + 1)) c w e) : i < j := by
  by_contra hji
  have hlt := (h.filed (Nat.le_of_lt hj)).lt e hh.mem
  have hle := h.nextOrder_le (Nat.le_of_not_lt hji) (Nat.le_of_lt hi)
  rw [he.order] at hlt
  omega

/-- **Nothing is handed out twice.** -/
theorem hands_once (h : Trail E last) {i j : Nat} (hi : i < last) (hj : j < last)
    (hh : (E i).Hands (E (i + 1)) c w e) (hh' : (E j).Hands (E (j + 1)) c' w' e) : i = j := by
  have hne : ∀ {i j c w c' w'}, j < last → (E i).Hands (E (i + 1)) c w e →
      (E j).Hands (E (j + 1)) c' w' e → ¬ i < j := fun {i j c w _ _} hj hh hh' hij =>
    ((h.mem_entries_iff (Nat.le_of_lt hj) e).mp hh'.mem).2 i hij c w hh
  have hij := hne hj hh hh'
  have hji := hne hi hh' hh
  omega

/-- Accepted dispatches have different numbers. -/
theorem enters_once (h : Trail E last) {i j : Nat} (hi : i < last) (hj : j < last)
    (he : (E i).Enters (E (i + 1)) e) (he' : (E j).Enters (E (j + 1)) e')
    (ho : e.order = e'.order) : i = j := by
  have hne : ∀ {i j e e'}, j < last → (E i).Enters (E (i + 1)) e →
      (E j).Enters (E (j + 1)) e' → e.order = e'.order → ¬ i < j := by
    intro i j e e' hj he he' ho hij
    have hle := h.nextOrder_le hij (Nat.le_of_lt hj)
    rw [he.nextOrder, ← he.order, ← he'.order, ho] at hle
    omega
  have hij := hne hj he he' ho
  have hji := hne hi he' he ho.symm
  omega

/-- **A run for a worker is the one that an entry was handed to.** -/
theorem run_handed (h : Trail E last) (hk : k ≤ last) {r : Nat}
    (hc : ((E k).runAt r).client = .worker c w) :
    ∃ j < k, ∃ e, (E j).Hands (E (j + 1)) c w e ∧ (E j).runs.length = r ∧
      (E j).registry.number? e.payload.rule = some ((E k).runAt r).rule ∧
      ((E k).runAt r).trigger = e.payload := by
  induction k with
  | zero =>
    obtain ⟨_, _, _, _, _, _, hE⟩ := h.fresh
    rw [hE] at hc
    cases hc
  | succ k ih =>
    have hk' := Nat.le_of_succ_le hk
    -- a run that was there has the instance and the trigger that it had
    have hold : ((E k).runAt r).client = .worker c w → ∃ j < k + 1, ∃ e,
        (E j).Hands (E (j + 1)) c w e ∧ (E j).runs.length = r ∧
        (E j).registry.number? e.payload.rule = some ((E (k + 1)).runAt r).rule ∧
        ((E (k + 1)).runAt r).trigger = e.payload := by
      intro hc'
      obtain ⟨j, hj, e, hh, hr, hn, ht⟩ := ih hk' hc'
      have hf := ((h.step k hk).core (h.reachable hk').valid).follows (h.reachable hk').valid
      have hrun := hf.run r (lt_of_worker hc')
      exact ⟨j, Nat.lt_succ_of_lt hj, e, hh, hr, hn.trans (congrArg some hrun.rule.symm),
        hrun.trigger.trans ht⟩
    cases h.passes hk with
    | rests he hn hr => exact hold ((hr r c w).mp hc)
    | enters he =>
      rw [runAt, he.aside.runs] at hc
      exact hold hc
    | @hands c' w' e hh hn =>
      cases hnum : (E k).registry.number? e.payload.rule with
      | none =>
        rw [runAt, (hh.drop hnum).1] at hc
        exact hold hc
      | some n =>
        have hrun := runAt_concat (hh.run n hnum).1 r
        by_cases hr : r = (E k).runs.length
        · rw [if_pos hr] at hrun
          rw [hrun] at hc
          obtain ⟨rfl, rfl⟩ : c' = c ∧ w' = w := by simpa using hc
          exact ⟨k, Nat.lt_succ_self k, e, hh, hr.symm, by rw [hnum, hrun], by rw [hrun]⟩
        · rw [if_neg hr] at hrun
          rw [hrun] at hc
          exact hold hc

/-- A crew that has stopped takes nothing any more. -/
theorem gone (h : Trail E last) {c : Nat} {j : Nat} (hkj : k ≤ j) (hj : j ≤ last)
    (hg : (E k).Gone c) : (E j).Gone c := by
  induction hkj with
  | refl => exact hg
  | @step j _ ih =>
    have hj' := Nat.le_of_succ_le hj
    exact (ih hj').step (h.staffed hj') (h.step j hj)

end Trail

theorem Gone.not_hands (h : E.Gone c) : ¬ E.Hands E' c w e := by
  intro hh
  rcases hh.free with hf | hf <;> rw [h.2 w] at hf <;> cases hf

/-- What becomes of dispatches in a course of an engine, as it stands after `k` steps. -/
structure Conserved (E : Nat → Engine) (last k : Nat) : Prop where
  /-- An accepted dispatch is known by its number, and is in the queue once at most. -/
  known : ∀ i < k, ∀ j < k, ∀ e e', (E i).Enters (E (i + 1)) e → (E j).Enters (E (j + 1)) e' →
    e.order = e'.order → i = j
  ordered : (E k).queue.Ordered
  accepted : ∀ t, ((E k).dispatch t).2 = .ok true ↔
    ∃ e, e.payload = t ∧ (E k).Enters ((E k).dispatch t).1 e
  /-- It is in the queue, or one worker has been handed it, once, after it had come in. -/
  fate : ∀ i < k, ∀ e, (E i).Enters (E (i + 1)) e →
    (e ∈ (E k).queue.entries ∧ ∀ j < k, ∀ c w, ¬ (E j).Hands (E (j + 1)) c w e) ∨
      (e ∉ (E k).queue.entries ∧ ∃ j c w, i < j ∧ j < k ∧ (E j).Hands (E (j + 1)) c w e ∧
        ∀ j' < k, ∀ c' w', (E j').Hands (E (j' + 1)) c' w' e → j' = j ∧ c' = c ∧ w' = w)
  /-- Nothing else is in the queue, and no other run is for a worker. -/
  queued : ∀ e ∈ (E k).queue.entries, ∃ i < k, (E i).Enters (E (i + 1)) e
  run : ∀ r c w, ((E k).runAt r).client = .worker c w →
    ∃ j < k, ∃ e, (E j).Hands (E (j + 1)) c w e ∧ (E j).runs.length = r ∧
      (E j).registry.number? e.payload.rule = some ((E k).runAt r).rule ∧
      ((E k).runAt r).trigger = e.payload
  stop : (E k).stopWork.1.queue = (E k).queue
  /-- The workers of a crew that has been stopped take nothing more. -/
  stopped : ∀ s ∈ (E k).stops, s.answered = true →
    ∀ j, k ≤ j → j < last → ∀ w e, ¬ (E j).Hands (E (j + 1)) s.crew w e
  /-- Once all stops are answered and nobody is at work, nothing is taken before a start. -/
  idle : (E k).running = none → (∀ s ∈ (E k).stops, s.answered = true) →
    ∀ j, k ≤ j → j < last → (E j).crews.length = (E k).crews.length →
      ∀ c w e, ¬ (E j).Hands (E (j + 1)) c w e
  /-- When nobody can take a turn and the queue is not empty, all workers are occupied by runs. -/
  occupied : (E k).ready = [] → (E k).queue.entries ≠ [] → ∀ c, (E k).running = some c →
    ((E k).crewAt c).workers.length = (E k).settings.dispatchWorkers.toNat ∧
      ∀ w < (E k).settings.dispatchWorkers.toNat, ∃ r, (E k).workerAt c w = .busy r ∧
        ((E k).runAt r).client = .worker c w ∧ ((E k).runAt r).answered = false

theorem queue_stopWork (E : Engine) : E.stopWork.1.queue = E.queue := by
  unfold stopWork
  dsimp only
  split
  · rfl
  · next c hr => exact (dismisses_dismiss (E := E) hr _ rfl).queue

namespace Trail

variable {E : Nat → Engine} {last k : Nat}

theorem fate (h : Trail E last) (hk : k ≤ last) {i : Nat} (hi : i < k) {e : QueueEntry Trigger}
    (he : (E i).Enters (E (i + 1)) e) :
    (e ∈ (E k).queue.entries ∧ ∀ j < k, ∀ c w, ¬ (E j).Hands (E (j + 1)) c w e) ∨
      (e ∉ (E k).queue.entries ∧ ∃ j c w, i < j ∧ j < k ∧ (E j).Hands (E (j + 1)) c w e ∧
        ∀ j' < k, ∀ c' w', (E j').Hands (E (j' + 1)) c' w' e → j' = j ∧ c' = c ∧ w' = w) := by
  have hmem := h.mem_entries_iff hk e
  by_cases hin : e ∈ (E k).queue.entries
  · exact .inl ⟨hin, (hmem.mp hin).2⟩
  · refine .inr ⟨hin, ?_⟩
    -- what has come in and is not there was handed out
    obtain ⟨j, hj, c, w, hh⟩ : ∃ j < k, ∃ c w, (E j).Hands (E (j + 1)) c w e := by
      by_contra hno
      refine hin (hmem.mpr ⟨⟨i, hi, he⟩, fun j hj c w hh => hno ⟨j, hj, c, w, hh⟩⟩)
    refine ⟨j, c, w, h.entered_before (by omega) (by omega) he hh, hj, hh,
      fun j' hj' c' w' hh' => ?_⟩
    obtain rfl := h.hands_once (by omega) (by omega) hh' hh
    exact ⟨rfl, (hh'.unique hh).1, (hh'.unique hh).2.1⟩

/-- **Every accepted dispatch is in the queue or has been handed once to one worker, which handed it
to one run of the instance in force or dropped it; whoever has stopped takes nothing; and an engine
at work of which no part can take a turn leaves something in the queue only if all its workers are
occupied.** -/
theorem dispatches_conserved (h : Trail E last) (hk : k ≤ last) : Conserved E last k where
  known := fun i hi j hj _ _ he he' ho => h.enters_once (by omega) (by omega) he he' ho
  ordered := (h.filed hk).ordered
  accepted := (E k).accepted_iff
  fate := fun _ hi _ he => h.fate hk hi he
  queued := fun e he => ((h.mem_entries_iff hk e).mp he).1
  run := fun _ _ _ hc => h.run_handed hk hc
  stop := queue_stopWork _
  stopped := by
    intro s hs ha j hkj hj w e
    have hg : (E k).Gone s.crew := ⟨(h.staffed hk).known s hs, (h.staffed hk).answered s hs ha⟩
    exact (h.gone hkj (Nat.le_of_lt hj) hg).not_hands
  idle := by
    intro hr hs j hkj hj hlen c w e hh
    -- whoever works is in a crew that was hired, and all of these have stopped
    have hc : c < (E k).crews.length := hlen ▸ lt_of_workers (lt_of_free hh.free)
    have hg : (E k).Gone c := by
      rcases (h.staffed hk).dismissed c hc with hrun | ⟨s, hmem, rfl⟩
      · rw [hr] at hrun
        cases hrun
      · exact ⟨hc, (h.staffed hk).answered s hmem (hs s hmem)⟩
    exact (h.gone hkj (Nat.le_of_lt hj) hg).not_hands hh
  occupied := fun hq he _ hr => (h.staffed hk).quiet hq hr he

end Trail

/-! ## A start while a stop is under way -/

/-- A rule is defined and the engine started, stopped and started; the first crew stops, and then a
trigger is dispatched. -/
def restartTrail : Nat → Engine
  | 0 => blank
  | 1 => blank.serve (.define prompt)
  | 2 => (restartTrail 1).serve .start
  | 3 => (restartTrail 2).serve .stop
  | 4 => (restartTrail 3).serve .start
  | 5 => (restartTrail 4).next
  | 6 => (restartTrail 5).next
  | 7 => (restartTrail 6).next
  | 8 => (restartTrail 7).serve (.dispatch change)
  | k + 9 => (restartTrail (k + 8)).next

theorem trail_restart : Trail restartTrail 9 := by
  refine ⟨fresh_blank, fun k hk => ?_⟩
  interval_cases k
  · exact .request (q := .define prompt) trivial
  · exact .request (q := .start) trivial
  · exact .request (q := .stop) trivial
  · exact .request (q := .start) trivial
  · exact step_next (by decide +kernel)
  · exact step_next (by decide +kernel)
  · exact step_next (by decide +kernel)
  · exact .request (q := .dispatch change) trivial
  · exact step_next (by decide +kernel)

/-- The one dispatch is accepted, and handed to a worker of the second crew. -/
theorem restart_conserved : Conserved restartTrail 9 9 ∧
    (restartTrail 8).queue.nextOrder = 1 ∧ (restartTrail 8).queue.size = 1 ∧
    (restartTrail 9).queue.size = 0 ∧ (restartTrail 9).workerAt 1 0 = .busy 0 :=
  ⟨trail_restart.dispatches_conserved (Nat.le_refl 9), by decide +kernel, by decide +kernel,
    by decide +kernel, by decide +kernel⟩

/-- **A stop may have been answered, nobody have started the engine since, and yet something be
taken: a start came before the answer.** -/
theorem taken_after_stop : ¬ ∀ (E : Nat → Engine) (last : Nat), Trail E last →
    ∀ k, (∃ s ∈ (E k).stops, s.answered = true) →
      ∀ j, k ≤ j → j < last → (E j).crews.length = (E k).crews.length →
        (E j).queue.entries ⊆ (E (j + 1)).queue.entries := by
  intro hall
  have hstop : ∃ s ∈ (restartTrail 7).stops, s.answered = true := by decide +kernel
  have hkeep := hall restartTrail 9 trail_restart 7 hstop 8 (by decide) (by decide)
    (by decide +kernel)
  have hempty : (restartTrail 9).queue.entries = [] :=
    List.isEmpty_iff.mp (by decide +kernel)
  have hfull : (restartTrail 8).queue.entries ≠ [] :=
    fun h => absurd (List.isEmpty_iff.mpr h) (by decide +kernel)
  rw [hempty] at hkeep
  exact hfull (List.subset_nil.mp hkeep)

end Engine

end ReactiveRules
