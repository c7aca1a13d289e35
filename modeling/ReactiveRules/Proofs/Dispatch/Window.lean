import ReactiveRules.Proofs.Dispatch.Forgetting

/-!
# `Proofs/Dispatch/Window.lean` — the window is exact

A queue remembers of each payload only when it was accepted last, and forgets even that when it is old
enough. A `Diary` forgets nothing: it keeps every acceptance with its time. **A station refuses an offer
exactly if its diary has an acceptance of the same payload that is younger than the window**
(`Diary.window_exact`), whatever has been served, waited for or cleaned up meanwhile.

What carries it is `Diary.Exact`: what is remembered are last acceptances, and of a payload that was
accepted within the window one is remembered. A move either has an offer accepted or leaves the diary
as it is (`Station.Forgets`), and then it may forget nothing that is younger than the window.
-/

set_option autoImplicit false

namespace ReactiveRules

/-! ## Counting payloads that differ -/

section Distinct

variable {α : Type} [BEq α] [EquivBEq α]

/-- Payloads no two of which are the same, and which stand for all payloads of a list, are as many as
there are different ones in the list. -/
theorem length_eraseDups (xs ys : List α) (hd : ys.Pairwise fun a b => (a == b) = false)
    (hys : ∀ y ∈ ys, ∃ x ∈ xs, (y == x) = true) (hxs : ∀ x ∈ xs, ∃ y ∈ ys, (y == x) = true) :
    ys.length = xs.eraseDups.length := by
  match xs with
  | [] =>
    cases ys with
    | nil => rfl
    | cons y ys =>
      obtain ⟨x, hx, -⟩ := hys y List.mem_cons_self
      cases hx
  | a :: as =>
    -- the one that stands for the head, and all the others
    obtain ⟨y₀, hy₀, ha⟩ := hxs a List.mem_cons_self
    obtain ⟨pre, post, rfl⟩ := List.append_of_mem hy₀
    rw [List.pairwise_append, List.pairwise_cons] at hd
    obtain ⟨hpre, ⟨hpost₀, hpost⟩, hacross⟩ := hd
    have hmem : ∀ y, y ∈ pre ++ y₀ :: post ↔ y = y₀ ∨ y ∈ pre ++ post := by
      simp only [List.mem_append, List.mem_cons]
      tauto
    have hother : ∀ y ∈ pre ++ post, (y == a) = false := by
      intro y hy
      rw [← BEq.congr_right ha]
      rcases List.mem_append.mp hy with hy | hy
      · exact hacross y hy y₀ List.mem_cons_self
      · rw [BEq.comm]
        exact hpost₀ y hy
    have hrest : (pre ++ post).length = (as.filter fun b => !b == a).eraseDups.length := by
      refine length_eraseDups _ _ ?_ (fun y hy => ?_) fun x hx => ?_
      · rw [List.pairwise_append]
        exact ⟨hpre, hpost, fun y hy z hz => hacross y hy z (List.mem_cons_of_mem _ hz)⟩
      · obtain ⟨x, hx, hyx⟩ := hys y ((hmem y).mpr (.inr hy))
        have hxa : (x == a) = false := by
          rw [← BEq.congr_left hyx]
          exact hother y hy
        rcases List.mem_cons.mp hx with rfl | hx
        · rw [BEq.rfl] at hxa
          cases hxa
        · exact ⟨x, List.mem_filter.mpr ⟨hx, by simp [hxa]⟩, hyx⟩
      · obtain ⟨hx, hxa⟩ := List.mem_filter.mp hx
        obtain ⟨y, hy, hyx⟩ := hxs x (List.mem_cons_of_mem _ hx)
        rcases (hmem y).mp hy with rfl | hy
        · have hsame : (x == a) = true := PartialEquivBEq.trans (BEq.symm hyx) ha
          simp [hsame] at hxa
        · exact ⟨y, hy, hyx⟩
    rw [List.eraseDups_cons, List.length_cons, ← hrest]
    simp only [List.length_append, List.length_cons]
    omega
termination_by xs.length
decreasing_by exact Nat.lt_succ_of_le (List.length_filter_le _ _)

end Distinct

/-! ## What does not concern the window -/

namespace DispatchQueue

variable {α ω : Type} {q q' q'' : DispatchQueue α ω}

/-- The same is remembered, for as long. -/
structure Recalls (q q' : DispatchQueue α ω) : Prop where
  window : q'.window = q.window
  accepted : q'.accepted = q.accepted

theorem Recalls.trans (h : q.Recalls q') (h' : q'.Recalls q'') : q.Recalls q'' :=
  ⟨h'.window.trans h.window, h'.accepted.trans h.accepted⟩

theorem recalls_notify (q : DispatchQueue α ω) : q.Recalls q.notify := by
  unfold notify
  split <;> exact ⟨rfl, rfl⟩

theorem recalls_poll (q : DispatchQueue α ω) : q.Recalls q.poll.1 := by
  unfold poll
  split <;> exact ⟨rfl, rfl⟩

theorem recalls_take (q : DispatchQueue α ω) (w : ω) : q.Recalls (q.take w).1 := by
  rcases q.take_cases w with ⟨e, -, hq⟩ | ⟨-, hq⟩ <;> rw [hq] <;> exact ⟨rfl, rfl⟩

theorem recalls_resume [BEq ω] (q : DispatchQueue α ω) (w : ω) : q.Recalls (q.resume w).1 :=
  have h := recalls_take { q with woken := q.woken.erase w } w
  ⟨h.window, h.accepted⟩

theorem recalls_abort [BEq ω] (q : DispatchQueue α ω) (w : ω) : q.Recalls (q.abort w) := by
  unfold abort
  split
  · have h := recalls_notify { q with woken := q.woken.erase w }
    exact ⟨h.window, h.accepted⟩
  · exact ⟨rfl, rfl⟩

end DispatchQueue

namespace Station

variable {α : Type} {s s' : Station α}

/-- Nothing is accepted. What is remembered may be forgotten, but nothing younger than the window. -/
structure Forgets (s s' : Station α) : Prop where
  window : s'.queue.window = s.queue.window
  now : s.now ≤ s'.now
  sublist : s'.queue.accepted.Sublist s.queue.accepted
  young : ∀ a ∈ s.queue.accepted, s'.now - a.2 < s.queue.window → a ∈ s'.queue.accepted

theorem Forgets.of_recalls (h : s.queue.Recalls s'.queue) (hn : s'.now = s.now) : s.Forgets s' where
  window := h.window
  now := Nat.le_of_eq hn.symm
  sublist := h.accepted ▸ List.Sublist.refl _
  young := fun _ ha _ => h.accepted ▸ ha

theorem now_finish (s : Station α) (n : Nat) (got : Option α) : (s.finish n got).now = s.now := by
  unfold finish
  split <;> rfl

theorem forgets_served (s : Station α) (n : Nat) {r : DispatchQueue α Nat × Option α}
    (hr : s.queue.Recalls r.1) : s.Forgets (s.served n r) := by
  unfold served
  dsimp only
  split
  · refine .of_recalls ?_ (now_finish _ _ _)
    rw [queue_finish]
    exact hr
  · split
    · refine .of_recalls ?_ (now_finish _ _ _)
      rw [queue_giveUp]
      exact hr.trans (DispatchQueue.recalls_abort _ n)
    · exact .of_recalls hr rfl

theorem forgets_giveUp (s : Station α) (n : Nat) : s.Forgets (s.giveUp n) := by
  refine .of_recalls ?_ (now_finish _ _ _)
  rw [queue_giveUp]
  exact s.queue.recalls_abort n

theorem forgets_turn (s : Station α) (n : Nat) (second : Bool) : s.Forgets (s.turn n second) := by
  unfold turn
  split
  · exact s.forgets_served n (s.queue.recalls_resume n)
  · split
    · exact s.forgets_giveUp n
    · exact .of_recalls ⟨rfl, rfl⟩ rfl

theorem forgets_start (s : Station α) (name : String) (heeds : Bool) (signal : Nat)
    (second : Bool) : s.Forgets (s.start name heeds signal second) := by
  obtain ⟨who, hs | hs⟩ := s.start_cases name heeds signal second <;> rw [hs]
  · refine .of_recalls ?_ (now_finish _ _ _)
    rw [queue_finish]
    exact ⟨rfl, rfl⟩
  · have h := (s.enter name who).forgets_served s.waiters.length
      (s.queue.recalls_take s.waiters.length)
    exact ⟨h.window, h.now, h.sublist, h.young⟩

theorem forgets_abort (s : Station α) (name : String) : s.Forgets (s.abort name).1 := by
  unfold abort
  split
  · exact .of_recalls ⟨rfl, rfl⟩ rfl
  · dsimp only
    split
    · exact .of_recalls (s.queue.recalls_abort _) rfl
    · exact .of_recalls ⟨rfl, rfl⟩ rfl

theorem forgets_cleanUp (s : Station α) : s.Forgets s.cleanUp.1 where
  window := rfl
  now := Nat.le_refl _
  sublist := List.filter_sublist
  young := fun _ ha hlt => List.mem_filter.mpr ⟨ha, decide_eq_true hlt⟩

theorem forgets_advance (s : Station α) (ms : Nat) : s.Forgets (s.advance ms) := by
  obtain ⟨htidy, hsub⟩ := passes (s.now + ms) s.keepers { s with keepers := [] }
  have hqueue : (s.advance ms).queue.cleanUp (s.now + ms) = s.queue.cleanUp (s.now + ms) :=
    congrArg Station.queue htidy
  refine ⟨(congrArg DispatchQueue.window hqueue :), Nat.le_add_right _ _, hsub, fun a ha hlt => ?_⟩
  have hyoung : a ∈ (s.queue.cleanUp (s.now + ms)).accepted :=
    List.mem_filter.mpr ⟨ha, decide_eq_true hlt⟩
  rw [← hqueue] at hyoung
  exact List.mem_of_mem_filter hyoung

/-- An offer that is refused changes nothing. -/
theorem offer_refused [BEq α] {p : α} {priority : Int} (h : (s.offer p priority).2 = false) :
    (s.offer p priority).1 = s := by
  have hq : (s.queue.offer s.now p priority).2 = false := h
  show ({ s with queue := (s.queue.offer s.now p priority).1 } : Station α) = s
  unfold DispatchQueue.offer at hq ⊢
  split at hq
  · next hs => rw [if_pos hs]
  · cases hq

/-- After an offer that is accepted its payload is remembered with the time, in the place of any that is
the same. -/
theorem offer_accepted [BEq α] {p : α} {priority : Int} (h : (s.offer p priority).2 = true) :
    (s.offer p priority).1.queue.window = s.queue.window ∧
      (s.offer p priority).1.queue.accepted
        = s.queue.accepted.filter (fun a => !(a.1 == p)) ++ [(p, s.now)] := by
  have hq : (s.queue.offer s.now p priority).2 = true := h
  have hoffer : (s.offer p priority).1.queue = s.queue.accept s.now p priority := by
    show (s.queue.offer s.now p priority).1 = _
    unfold DispatchQueue.offer at hq ⊢
    split at hq
    · cases hq
    · next hs => rw [if_neg hs]
  rw [hoffer]
  exact ⟨(DispatchQueue.recalls_notify _).window, DispatchQueue.accepted_notify _⟩

/-- A move that has no offer accepted. -/
theorem forgets_play [BEq α] {m : Move α} (hm : s.accepts m = []) : s.Forgets (s.play m) := by
  cases m with
  | offer p priority =>
    have hno : (s.offer p priority).2 = false := by
      by_contra h
      simp [accepts, (Bool.not_eq_false _).mp h] at hm
    show s.Forgets (s.offer p priority).1
    rw [offer_refused hno]
    exact .of_recalls ⟨rfl, rfl⟩ rfl
  | poll => exact .of_recalls s.queue.recalls_poll rfl
  | start name heeds signal second => exact s.forgets_start name heeds signal second
  | abort name => exact s.forgets_abort name
  | raise k =>
    show s.Forgets (s.raise k).1
    unfold raise
    split <;> exact .of_recalls ⟨rfl, rfl⟩ rfl
  | leave k => exact .of_recalls ⟨rfl, rfl⟩ rfl
  | cleanUp => exact s.forgets_cleanUp
  | keep period => exact .of_recalls ⟨rfl, rfl⟩ rfl
  | stopKeeper => exact .of_recalls ⟨rfl, rfl⟩ rfl
  | advance ms => exact s.forgets_advance ms
  | turn n second => exact s.forgets_turn n second

/-! ## Diaries -/

/-- A station, and when its offers were accepted. -/
structure Diary (α : Type) where
  station : Station α
  /-- The payloads that were accepted, each with the time, in order. -/
  acceptances : List (α × Nat) := []

namespace Diary

variable [BEq α] {D : Diary α} {window : Nat}

def ofWindow (window : Nat) : Diary α := { station := .ofWindow window }

def play (D : Diary α) (m : Move α) : Diary α :=
  { station := D.station.play m
    acceptances := D.acceptances ++ (D.station.accepts m).map fun a => (a.1, D.station.now) }

def after (D : Diary α) (ms : List (Move α)) : Diary α := ms.foldl play D

/-- The payload was accepted at a time, and not later. -/
def Last (D : Diary α) (p : α) (t : Nat) : Prop :=
  (∃ a ∈ D.acceptances, (a.1 == p) = true ∧ a.2 = t) ∧
    ∀ a ∈ D.acceptances, (a.1 == p) = true → a.2 ≤ t

/-- What the station remembers, against the diary. -/
structure Exact (D : Diary α) (window : Nat) : Prop where
  spans : D.station.queue.window = window
  distinct : D.station.queue.Distinct
  past : ∀ a ∈ D.acceptances, a.2 ≤ D.station.now
  apart : D.acceptances.Pairwise fun a b => (a.1 == b.1) = true → a.2 + window ≤ b.2
  last : ∀ a ∈ D.station.queue.accepted, D.Last a.1 a.2
  young : ∀ a ∈ D.acceptances, D.station.now - a.2 < window →
    ∃ b ∈ D.station.queue.accepted, (b.1 == a.1) = true

theorem exact_ofWindow (window : Nat) : (ofWindow window : Diary α).Exact window where
  spans := rfl
  distinct := List.Pairwise.nil
  past := fun _ ha => by cases ha
  apart := List.Pairwise.nil
  last := fun _ ha => by cases ha
  young := fun _ ha => by cases ha

/-- **Of a payload that was accepted within the window, an acceptance within the window is
remembered.** -/
theorem Exact.suppressed_iff [PartialEquivBEq α] (h : D.Exact window) (p : α) :
    D.station.queue.suppressed D.station.now p = true ↔
      ∃ a ∈ D.acceptances, (a.1 == p) = true ∧ D.station.now - a.2 < window := by
  rw [DispatchQueue.suppressed_iff h.distinct, h.spans]
  constructor
  · rintro ⟨b, hb, hbp, hlt⟩
    obtain ⟨a, ha, hab, hat⟩ := (h.last b hb).1
    exact ⟨a, ha, PartialEquivBEq.trans hab hbp, by rwa [hat]⟩
  · rintro ⟨a, ha, hap, hlt⟩
    obtain ⟨b, hb, hba⟩ := h.young a ha hlt
    have hle := (h.last b hb).2 a ha (BEq.symm hba)
    exact ⟨b, hb, PartialEquivBEq.trans hba hap, by omega⟩

theorem Exact.refused_iff [PartialEquivBEq α] (h : D.Exact window) (p : α) (priority : Int) :
    (D.station.offer p priority).2 = false ↔
      ∃ a ∈ D.acceptances, (a.1 == p) = true ∧ D.station.now - a.2 < window := by
  rw [← h.suppressed_iff]
  show (D.station.queue.offer D.station.now p priority).2 = false ↔ _
  unfold DispatchQueue.offer
  split
  · next hs => exact ⟨fun _ => hs, fun _ => rfl⟩
  · next hs => exact ⟨fun hf => (by cases hf), fun ht => absurd ht hs⟩

/-- A move that has no offer accepted. -/
theorem Exact.forgets [EquivBEq α] {s : Station α} (h : D.Exact window) (hf : D.station.Forgets s) :
    Exact { D with station := s } window where
  spans := hf.window.trans h.spans
  distinct := h.distinct.sublist hf.sublist
  past := fun a ha => Nat.le_trans (h.past a ha) hf.now
  apart := h.apart
  last := fun a ha => h.last a (hf.sublist.subset ha)
  young := fun a ha hlt => by
    have hnow := hf.now
    have hlt' : s.now - a.2 < window := hlt
    obtain ⟨b, hb, hba⟩ := h.young a ha (by omega)
    have hle := (h.last b hb).2 a ha (BEq.symm hba)
    exact ⟨b, hf.young b hb (by rw [h.spans]; omega), hba⟩

theorem Exact.past_concat (h : D.Exact window) (p : α) :
    ∀ a ∈ D.acceptances ++ [(p, D.station.now)], a.2 ≤ D.station.now := by
  intro a ha
  rcases List.mem_append.mp ha with ha | ha
  · exact h.past a ha
  · exact Nat.le_of_eq (congrArg Prod.snd (List.mem_singleton.mp ha))

/-- An offer is accepted only when the window is over for each payload that is the same. -/
theorem Exact.apart_concat [PartialEquivBEq α] (h : D.Exact window) {p : α} {priority : Int}
    (hp : (D.station.offer p priority).2 = true) : (D.acceptances ++ [(p, D.station.now)]).Pairwise
      fun a b => (a.1 == b.1) = true → a.2 + window ≤ b.2 := by
  have hfree : ¬ ∃ a ∈ D.acceptances, (a.1 == p) = true ∧ D.station.now - a.2 < window := by
    rw [← h.refused_iff p priority, hp]
    exact Bool.false_ne_true.symm
  rw [List.pairwise_append]
  refine ⟨h.apart, List.pairwise_singleton _ _, fun a ha b hb hab => ?_⟩
  rw [List.mem_singleton.mp hb] at hab ⊢
  have hold : ¬ D.station.now - a.2 < window := fun hlt => hfree ⟨a, ha, hab, hlt⟩
  have hpast := h.past a ha
  show a.2 + window ≤ D.station.now
  omega

/-- One more acceptance is the last of its payload, and leaves those of others as they are. -/
theorem Exact.last_concat [EquivBEq α] (h : D.Exact window) (s : Station α) {p : α} {b : α × Nat}
    (hb : b ∈ D.station.queue.accepted.filter (fun a => !(a.1 == p)) ++ [(p, D.station.now)]) :
    Last { station := s, acceptances := D.acceptances ++ [(p, D.station.now)] } b.1 b.2 := by
  rcases List.mem_append.mp hb with hb | hb
  · obtain ⟨hb, hbp⟩ := List.mem_filter.mp hb
    obtain ⟨⟨a, ha, hab, hat⟩, hmax⟩ := h.last b hb
    refine ⟨⟨a, List.mem_append_left _ ha, hab, hat⟩, fun a' ha' hab' => ?_⟩
    rcases List.mem_append.mp ha' with ha' | ha'
    · exact hmax a' ha' hab'
    · rw [List.mem_singleton.mp ha'] at hab'
      simp [BEq.symm hab'] at hbp
  · rw [List.mem_singleton.mp hb]
    exact ⟨⟨_, List.mem_append_right _ (List.mem_singleton_self _), BEq.rfl, rfl⟩,
      fun a ha _ => h.past_concat p a ha⟩

/-- No payload accepted within the window is forgotten for the new one, unless it is the same. -/
theorem Exact.young_concat [EquivBEq α] (h : D.Exact window) {p : α} {a : α × Nat}
    (ha : a ∈ D.acceptances ++ [(p, D.station.now)]) (hlt : D.station.now - a.2 < window) :
    ∃ b ∈ D.station.queue.accepted.filter (fun a => !(a.1 == p)) ++ [(p, D.station.now)],
      (b.1 == a.1) = true := by
  rcases List.mem_append.mp ha with ha | ha
  · by_cases hap : (a.1 == p) = true
    · exact ⟨_, List.mem_append_right _ (List.mem_singleton_self _), BEq.symm hap⟩
    · obtain ⟨b, hb, hba⟩ := h.young a ha hlt
      have hbp : (b.1 == p) = false := by
        rw [BEq.congr_left hba]
        exact (Bool.not_eq_true _).mp hap
      exact ⟨b, List.mem_append_left _ (List.mem_filter.mpr ⟨hb, by simp [hbp]⟩), hba⟩
  · rw [List.mem_singleton.mp ha]
    exact ⟨_, List.mem_append_right _ (List.mem_singleton_self _), BEq.rfl⟩

/-- An offer that is accepted. -/
theorem Exact.accept [EquivBEq α] (h : D.Exact window) {p : α} {priority : Int}
    (hp : (D.station.offer p priority).2 = true) :
    Exact { station := (D.station.offer p priority).1
            acceptances := D.acceptances ++ [(p, D.station.now)] } window := by
  obtain ⟨hwindow, haccepted⟩ := offer_accepted hp
  exact {
    spans := hwindow.trans h.spans
    distinct := h.distinct.offer _ _ _
    past := h.past_concat p
    apart := h.apart_concat hp
    last := fun b hb => by
      rw [haccepted] at hb
      exact h.last_concat _ hb
    young := fun a ha hlt => by
      rw [haccepted]
      exact h.young_concat ha hlt }

theorem Exact.play [EquivBEq α] (h : D.Exact window) (m : Move α) : (D.play m).Exact window := by
  cases ha : D.station.accepts m with
  | nil =>
    have hf := h.forgets (forgets_play ha)
    unfold Diary.play
    rw [ha, List.map_nil, List.append_nil]
    exact hf
  | cons a rest =>
    cases m with
    | offer p priority =>
      have hp : (D.station.offer p priority).2 = true := by
        by_contra hp
        simp [accepts, (Bool.not_eq_true _).mp hp] at ha
      have hone : D.station.accepts (.offer p priority) = [(p, priority)] := if_pos hp
      have hacc := h.accept hp
      unfold Diary.play
      rw [hone]
      exact hacc
    | _ => cases ha

theorem exact_after [EquivBEq α] (window : Nat) (ms : List (Move α)) :
    ((ofWindow window : Diary α).after ms).Exact window := by
  have hall : ∀ (ms : List (Move α)) (D : Diary α), D.Exact window → (D.after ms).Exact window := by
    intro ms
    induction ms with
    | nil => exact fun D h => h
    | cons m rest ih => exact fun D h => ih _ (h.play m)
  exact hall ms _ (exact_ofWindow window)

/-! ### Cleaning up -/

/-- Cleaning up leaves as many payloads as were accepted within the window. -/
theorem Exact.tracked_cleanUp [EquivBEq α] (h : D.Exact window) :
    D.station.cleanUp.1.queue.tracked
      = ((D.acceptances.filter fun a => D.station.now - a.2 < window).map (·.1)).eraseDups.length := by
  have hmem : ∀ b, b ∈ D.station.cleanUp.1.queue.accepted ↔
      b ∈ D.station.queue.accepted ∧ D.station.now - b.2 < window := fun b => by
    show b ∈ D.station.queue.accepted.filter _ ↔ _
    rw [List.mem_filter, decide_eq_true_eq, h.spans]
  have hcount := length_eraseDups
    ((D.acceptances.filter fun a => D.station.now - a.2 < window).map (·.1))
    (D.station.cleanUp.1.queue.accepted.map (·.1)) ?_ ?_ ?_
  · rw [List.length_map] at hcount
    exact hcount
  · rw [List.pairwise_map]
    exact h.distinct.cleanUp D.station.now
  · intro p hp
    obtain ⟨b, hb, rfl⟩ := List.mem_map.mp hp
    obtain ⟨hb, hlt⟩ := (hmem b).mp hb
    obtain ⟨a, ha, hab, hat⟩ := (h.last b hb).1
    have hyoung : D.station.now - a.2 < window := by rwa [hat]
    exact ⟨a.1, List.mem_map_of_mem (List.mem_filter.mpr ⟨ha, decide_eq_true hyoung⟩),
      BEq.symm hab⟩
  · intro p hp
    obtain ⟨a, ha, rfl⟩ := List.mem_map.mp hp
    obtain ⟨ha, hlt⟩ := List.mem_filter.mp ha
    have hlt : D.station.now - a.2 < window := of_decide_eq_true hlt
    obtain ⟨b, hb, hba⟩ := h.young a ha hlt
    have hle := (h.last b hb).2 a ha (BEq.symm hba)
    exact ⟨b.1, List.mem_map_of_mem ((hmem b).mpr ⟨hb, by omega⟩), hba⟩

/-- The answer of cleaning up is the number of those who were forgotten. -/
theorem Exact.cleanUp_count (h : D.Exact window) : D.station.cleanUp.2
    = (D.station.queue.accepted.filter fun a => window ≤ D.station.now - a.2).length := by
  have hsplit := List.length_eq_length_filter_add (l := D.station.queue.accepted)
    (fun a => decide (D.station.now - a.2 < D.station.queue.window))
  have hnot : D.station.queue.accepted.filter
      (fun a => !decide (D.station.now - a.2 < D.station.queue.window))
      = D.station.queue.accepted.filter fun a => window ≤ D.station.now - a.2 :=
    List.filter_congr fun a _ => by
      rw [h.spans, ← decide_not]
      exact decide_eq_decide.mpr Nat.not_lt
  rw [← hnot]
  show D.station.queue.accepted.length - (D.station.queue.accepted.filter
    fun a => decide (D.station.now - a.2 < D.station.queue.window)).length = _
  omega

/-- **The window is exact.** After any moves an offer is refused exactly if an offer of the same payload
was accepted less than a window ago, and then it changes nothing. So acceptances of the same payload are
at least a window apart, whether or not the earlier one has been served. What is remembered are payloads
that differ, each with the time of its last acceptance. Cleaning up forgets exactly those whose last
acceptance is at least a window old and answers how many they are, and as many are left as different
payloads were accepted less than a window ago. Requests are the same if they agree on all but the
value. -/
theorem window_exact [EquivBEq α] (window : Nat) (ms : List (Move α)) :
    let D := (ofWindow window : Diary α).after ms
    let s := D.station
    (∀ a ∈ D.acceptances, a.2 ≤ s.now) ∧
    (∀ p priority, (s.offer p priority).2 = false ↔
      ∃ a ∈ D.acceptances, (a.1 == p) = true ∧ s.now - a.2 < window) ∧
    (∀ p priority, (s.offer p priority).2 = false → (s.offer p priority).1 = s) ∧
    (D.acceptances.Pairwise fun a b => (a.1 == b.1) = true → a.2 + window ≤ b.2) ∧
    (s.queue.accepted.Pairwise (fun a b => (a.1 == b.1) = false) ∧
      ∀ a ∈ s.queue.accepted, D.Last a.1 a.2) ∧
    (∀ a, a ∈ s.cleanUp.1.queue.accepted ↔ a ∈ s.queue.accepted ∧ ¬ window ≤ s.now - a.2) ∧
    s.cleanUp.2 = (s.queue.accepted.filter fun a => window ≤ s.now - a.2).length ∧
    s.cleanUp.1.queue.tracked
      = ((D.acceptances.filter fun a => s.now - a.2 < window).map (·.1)).eraseDups.length ∧
    ∀ a b : Trigger, (a == b) = true ↔
      a.rule = b.rule ∧ a.node = b.node ∧ a.name = b.name ∧ a.aspect = b.aspect := by
  intro D s
  have h : D.Exact window := exact_after window ms
  refine ⟨h.past, h.refused_iff, fun p priority => offer_refused, h.apart, ⟨h.distinct, h.last⟩,
    fun a => ?_, h.cleanUp_count, h.tracked_cleanUp, fun a b => Trigger.beq_iff⟩
  show a ∈ s.queue.accepted.filter _ ↔ _
  rw [List.mem_filter, decide_eq_true_eq, h.spans, Nat.not_le]

/-- A request that has been served is refused with another value 999 milliseconds later, and accepted
one millisecond after that. -/
theorem window_exact_requests :
    let request (value : Bool) : Trigger :=
      { rule := "heating", node := "room", name := "target", value := .bool value
        aspect := .property }
    let D := (ofWindow 1000 : Diary Trigger).after [.offer (request true) 0, .poll, .advance 999]
    let D' := (ofWindow 1000 : Diary Trigger).after
      [.offer (request true) 0, .poll, .advance 999, .advance 1]
    (D.station.offer (request false) 0).2 = false ∧
      (D'.station.offer (request false) 0).2 = true := by
  intro request D D'
  have hsame : (request true == request false) = true := Trigger.beq_iff.mpr ⟨rfl, rfl, rfl, rfl⟩
  have ⟨_, hexact, _⟩ := window_exact 1000 [.offer (request true) 0, .poll, .advance 999]
  have ⟨_, hexact', _⟩ := window_exact 1000 [.offer (request true) 0, .poll, .advance 999, .advance 1]
  refine ⟨(hexact (request false) 0).mpr ⟨(request true, 0), List.mem_singleton_self _, hsame, ?_⟩,
    (Bool.not_eq_false _).mp fun hf => ?_⟩
  · show 999 - 0 < 1000
    decide
  · obtain ⟨a, ha, -, hlt⟩ := (hexact' (request false) 0).mp hf
    have ha : a ∈ [(request true, 0)] := ha
    rw [List.mem_singleton.mp ha] at hlt
    exact absurd (show 1000 - 0 < 1000 from hlt) (by decide)

end Diary

end Station

end ReactiveRules
