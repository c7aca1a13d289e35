import ReactiveRules.Proofs.Dispatch.Effects
import ReactiveRules.Trigger

/-!
# `Proofs/Dispatch/Forgetting.lean` — what a queue may forget

A queue remembers when each payload was accepted last, so it may forget acceptances that are as old
as the window: **a queue that has cleaned up gives the same answer to every offer**
(`DispatchQueue.suppressed_cleanUp`), and all its other operations do not look at what it remembers.
Two queues are therefore as good as the same if they are after cleaning up, and two stations if
their queues are, whatever cleaned them up and when.
-/

set_option autoImplicit false

namespace ReactiveRules

namespace Trigger

variable {a b c : Trigger}

theorem beq_iff : (a == b) = true ↔
    a.rule = b.rule ∧ a.node = b.node ∧ a.name = b.name ∧ a.aspect = b.aspect := by
  show sameRequest a b = true ↔ _
  simp [sameRequest, and_assoc]

/-- Being the same request is an equivalence. -/
instance : EquivBEq Trigger where
  rfl := beq_iff.mpr ⟨rfl, rfl, rfl, rfl⟩
  symm h := by
    obtain ⟨hr, hn, ha, hs⟩ := beq_iff.mp h
    exact beq_iff.mpr ⟨hr.symm, hn.symm, ha.symm, hs.symm⟩
  trans h h' := by
    obtain ⟨hr, hn, ha, hs⟩ := beq_iff.mp h
    obtain ⟨hr', hn', ha', hs'⟩ := beq_iff.mp h'
    exact beq_iff.mpr ⟨hr.trans hr', hn.trans hn', ha.trans ha', hs.trans hs'⟩

end Trigger

namespace DispatchQueue

variable {α ω : Type} {q q' : DispatchQueue α ω} {now t : Nat}

/-! ## Cleaning up -/

/-- What is forgotten early would be forgotten later. -/
theorem cleanUp_cleanUp (q : DispatchQueue α ω) (h : now ≤ t) :
    (q.cleanUp now).cleanUp t = q.cleanUp t := by
  unfold cleanUp
  simp only [List.filter_filter]
  congr 1
  refine List.filter_congr fun a _ => ?_
  simp only [Bool.and_eq_left_iff_imp, decide_eq_true_eq]
  omega

theorem cleanUp_later (h : q.cleanUp now = q'.cleanUp now) (ht : now ≤ t) :
    q.cleanUp t = q'.cleanUp t := by
  rw [← cleanUp_cleanUp q ht, h, cleanUp_cleanUp q' ht]

theorem cleanUp_notify (q : DispatchQueue α ω) (now : Nat) :
    q.notify.cleanUp now = (q.cleanUp now).notify := by
  unfold notify cleanUp
  cases q.waiting <;> rfl

/-- A queue that serves nobody but those who look does so whatever it has forgotten. -/
theorem cleanUp_take (q : DispatchQueue α ω) (now : Nat) (w : ω) :
    (q.cleanUp now).take w = ((q.take w).1.cleanUp now, (q.take w).2) := by
  rcases q.take_cases w with ⟨e, hl, hq⟩ | ⟨hnil, hq⟩ <;> rw [hq]
  · simp only [take, poll, cleanUp, hl]
  · simp only [take, poll, cleanUp, hnil, least?]

theorem cleanUp_poll (q : DispatchQueue α ω) (now : Nat) :
    (q.cleanUp now).poll = (q.poll.1.cleanUp now, q.poll.2) := by
  unfold poll cleanUp
  dsimp only
  cases least? q.entries <;> rfl

theorem cleanUp_resume [BEq ω] (q : DispatchQueue α ω) (now : Nat) (w : ω) :
    (q.cleanUp now).resume w = ((q.resume w).1.cleanUp now, (q.resume w).2) :=
  cleanUp_take { q with woken := q.woken.erase w } now w

theorem cleanUp_abort [BEq ω] (q : DispatchQueue α ω) (now : Nat) (w : ω) :
    (q.cleanUp now).abort w = (q.abort w).cleanUp now := by
  unfold abort
  have hw : (q.cleanUp now).woken = q.woken := rfl
  rw [hw]
  split
  · exact (cleanUp_notify { q with woken := q.woken.erase w } now).symm
  · rfl

/-! ## Offers -/

section Offers

variable [BEq α]

/-- No two acceptances are remembered of the same payload. -/
def Distinct (q : DispatchQueue α ω) : Prop :=
  q.accepted.Pairwise fun a b => (a.1 == b.1) = false

theorem Distinct.sublist (h : q.Distinct) (hs : q'.accepted.Sublist q.accepted) : q'.Distinct :=
  List.Pairwise.sublist hs h

theorem Distinct.cleanUp (h : q.Distinct) (now : Nat) : (q.cleanUp now).Distinct :=
  h.sublist List.filter_sublist

theorem Distinct.accept (h : q.Distinct) (now : Nat) (p : α) (priority : Int) :
    (q.accept now p priority).Distinct := by
  unfold DispatchQueue.Distinct DispatchQueue.accept
  rw [accepted_notify, List.pairwise_append]
  refine ⟨List.Pairwise.filter _ h, List.pairwise_singleton _ _, fun a ha b hb => ?_⟩
  rw [List.mem_singleton.mp hb]
  simpa using (List.mem_filter.mp ha).2

theorem Distinct.poll (h : q.Distinct) : q.poll.1.Distinct :=
  h.sublist (by rw [accepted_poll])

theorem Distinct.offer (h : q.Distinct) (now : Nat) (p : α) (priority : Int) :
    (q.offer now p priority).1.Distinct := by
  unfold DispatchQueue.offer
  split
  · exact h
  · exact h.accept now p priority

theorem cleanUp_accept (q : DispatchQueue α ω) (now : Nat) (p : α) (priority : Int) :
    ((q.cleanUp now).accept now p priority).cleanUp now
      = (q.accept now p priority).cleanUp now := by
  unfold accept
  rw [cleanUp_notify, cleanUp_notify]
  unfold cleanUp
  simp only [List.filter_append, List.filter_filter]
  congr 2
  · congr 1
    refine List.filter_congr fun a _ => ?_
    simp only [Bool.and_comm, Bool.and_left_comm, Bool.and_self]

variable [PartialEquivBEq α]

/-- Of the same payload, only one acceptance can be found. -/
theorem suppressed_iff (h : q.Distinct) (p : α) : q.suppressed now p = true ↔
    ∃ a ∈ q.accepted, (a.1 == p) = true ∧ now - a.2 < q.window := by
  have hfind : ∀ {xs : List (α × Nat)}, xs.Pairwise (fun a b => (a.1 == b.1) = false) →
      ∀ {a}, a ∈ xs → (a.1 == p) = true → xs.find? (·.1 == p) = some a := by
    intro xs hx
    induction hx with
    | nil => intro a ha; cases ha
    | @cons x rest hhead _ ih =>
      intro a ha hp
      rw [List.find?_cons]
      rcases List.mem_cons.mp ha with rfl | ha
      · rw [hp]
      · have hx : (x.1 == p) = false := by
          by_contra hx
          have hxa := PartialEquivBEq.trans ((Bool.not_eq_false _).mp hx) (PartialEquivBEq.symm hp)
          rw [hhead a ha] at hxa
          cases hxa
        rw [hx]
        exact ih ha hp
  unfold suppressed lastAccepted?
  constructor
  · intro hs
    split at hs
    · next last hl =>
      obtain ⟨a, ha, rfl⟩ := Option.map_eq_some_iff.mp hl
      exact ⟨a, List.mem_of_find?_eq_some ha, List.find?_some (p := fun a : α × Nat => a.1 == p) ha,
        of_decide_eq_true hs⟩
    · cases hs
  · rintro ⟨a, ha, hp, hlt⟩
    rw [hfind h ha hp]
    exact decide_eq_true hlt

/-- **What a queue forgets would not have suppressed anything.** -/
theorem suppressed_cleanUp (h : q.Distinct) (p : α) :
    (q.cleanUp now).suppressed now p = q.suppressed now p := by
  rw [Bool.eq_iff_iff, suppressed_iff h, suppressed_iff (h.cleanUp now)]
  constructor
  · rintro ⟨a, ha, hp, hlt⟩
    exact ⟨a, List.mem_of_mem_filter ha, hp, hlt⟩
  · rintro ⟨a, ha, hp, hlt⟩
    exact ⟨a, List.mem_filter.mpr ⟨ha, decide_eq_true hlt⟩, hp, hlt⟩

theorem suppressed_eq (hd : q.Distinct) (hd' : q'.Distinct) (h : q.cleanUp now = q'.cleanUp now)
    (p : α) : q'.suppressed now p = q.suppressed now p := by
  rw [← suppressed_cleanUp hd, h, suppressed_cleanUp hd']

/-- The same offer is answered the same. -/
theorem offer_eq (hd : q.Distinct) (hd' : q'.Distinct) (h : q.cleanUp now = q'.cleanUp now) (p : α)
    (priority : Int) : (q'.offer now p priority).2 = (q.offer now p priority).2 ∧
      (q.offer now p priority).1.cleanUp now = (q'.offer now p priority).1.cleanUp now := by
  unfold offer
  rw [suppressed_eq hd hd' h]
  split
  · exact ⟨rfl, h⟩
  · exact ⟨rfl, by rw [← cleanUp_accept, h, cleanUp_accept]⟩

end Offers

end DispatchQueue

/-! ## Stations -/

namespace Station

variable {α : Type} [BEq α] {s s' : Station α}

/-- The station as it is when its queue has cleaned up, without its keepers. -/
def tidy (s : Station α) : Station α :=
  { s with queue := s.queue.cleanUp s.now, keepers := [] }

/-- The two stations differ in their keepers and in acceptances that may be forgotten. -/
structure Resembles (s s' : Station α) : Prop where
  tidy : s.tidy = s'.tidy
  distinct : s.queue.Distinct
  distinct' : s'.queue.Distinct

theorem resembles_ofWindow (window : Nat) :
    (Station.ofWindow window : Station α).Resembles (Station.ofWindow window) :=
  ⟨rfl, List.Pairwise.nil, List.Pairwise.nil⟩

namespace Resembles

theorem now (h : s.Resembles s') : s'.now = s.now := (congrArg Station.now h.tidy).symm

theorem queue (h : s.Resembles s') : s.queue.cleanUp s.now = s'.queue.cleanUp s.now := by
  have hq : s.queue.cleanUp s.now = s'.queue.cleanUp s'.now := congrArg Station.queue h.tidy
  rwa [h.now] at hq

theorem waiters (h : s.Resembles s') : s'.waiters = s.waiters :=
  (congrArg Station.waiters h.tidy).symm

theorem finished (h : s.Resembles s') : s'.finished = s.finished :=
  (congrArg Station.finished h.tidy).symm

theorem called (h : s.Resembles s') : s'.called = s.called := (congrArg Station.called h.tidy).symm

theorem woken (h : s.Resembles s') : s'.queue.woken = s.queue.woken :=
  (congrArg (·.queue.woken) h.tidy).symm

theorem dismissed (h : s.Resembles s') (n : Nat) : s'.dismissed n = s.dismissed n :=
  (congrArg (·.dismissed n) h.tidy).symm

/-- What does not touch the queue does the same to both. -/
theorem map {f : Station α → Station α} (h : s.Resembles s')
    (hf : ∀ s, (f s).tidy = f s.tidy) (hq : ∀ s, (f s).queue = s.queue) :
    (f s).Resembles (f s') :=
  ⟨by rw [hf s, hf s', h.tidy], by rw [hq]; exact h.distinct, by rw [hq]; exact h.distinct'⟩

theorem setQueue {q q' : DispatchQueue α Nat} (h : s.Resembles s')
    (hq : q.cleanUp s.now = q'.cleanUp s.now) (hd : q.Distinct) (hd' : q'.Distinct) :
    Resembles { s with queue := q } { s' with queue := q' } := by
  refine ⟨?_, hd, hd'⟩
  show ({ s.tidy with queue := q.cleanUp s.now } : Station α)
    = { s'.tidy with queue := q'.cleanUp s'.now }
  rw [h.now, hq, h.tidy]

theorem finish (h : s.Resembles s') (n : Nat) (got : Option α) :
    (s.finish n got).Resembles (s'.finish n got) := by
  refine h.map (fun s => ?_) fun s => queue_finish s n got
  unfold Station.finish
  have hw : s.tidy.waiters = s.waiters := rfl
  rw [hw]
  split <;> rfl

theorem abort (h : s.Resembles s') (n : Nat) :
    Resembles { s with queue := s.queue.abort n } { s' with queue := s'.queue.abort n } := by
  refine h.setQueue ?_ ?_ ?_
  · rw [← DispatchQueue.cleanUp_abort, h.queue, DispatchQueue.cleanUp_abort]
  · exact h.distinct.sublist (by rw [DispatchQueue.accepted_abort])
  · exact h.distinct'.sublist (by rw [DispatchQueue.accepted_abort])

theorem giveUp (h : s.Resembles s') (n : Nat) : (s.giveUp n).Resembles (s'.giveUp n) :=
  (h.abort n).finish n none

/-- A waiter that has had its turn leaves it the same way. -/
theorem served {r r' : DispatchQueue α Nat × Option α} (h : s.Resembles s') (n : Nat)
    (hr : (r.1.cleanUp s.now, r.2) = (r'.1.cleanUp s.now, r'.2))
    (ha : r.1.accepted = s.queue.accepted) (ha' : r'.1.accepted = s'.queue.accepted) :
    (s.served n r).Resembles (s'.served n r') := by
  obtain ⟨q, got⟩ := r
  obtain ⟨q', got'⟩ := r'
  obtain ⟨hq, rfl⟩ := Prod.mk.inj hr
  have hs := h.setQueue hq (h.distinct.sublist (by rw [ha])) (h.distinct'.sublist (by rw [ha']))
  unfold Station.served
  cases got with
  | some p => exact hs.finish n (some p)
  | none =>
    dsimp only
    rw [hs.dismissed]
    split
    · exact hs.giveUp n
    · exact hs

theorem take (h : s.Resembles s') (n : Nat) :
    (s.served n (s.queue.take n)).Resembles (s'.served n (s'.queue.take n)) :=
  h.served n (by rw [← DispatchQueue.cleanUp_take, h.queue, DispatchQueue.cleanUp_take])
    (s.queue.accepted_take n) (s'.queue.accepted_take n)

theorem turn (h : s.Resembles s') (n : Nat) (second : Bool) :
    (s.turn n second).Resembles (s'.turn n second) := by
  unfold Station.turn
  rw [h.woken, h.dismissed, h.called]
  split
  · exact h.served n (by rw [← DispatchQueue.cleanUp_resume, h.queue, DispatchQueue.cleanUp_resume])
      (s.queue.accepted_resume n) (s'.queue.accepted_resume n)
  · split
    · exact h.giveUp n
    · exact h

theorem offer [PartialEquivBEq α] (h : s.Resembles s') (p : α) (priority : Int) :
    (s'.offer p priority).2 = (s.offer p priority).2 ∧
      (s.offer p priority).1.Resembles (s'.offer p priority).1 := by
  have ho := DispatchQueue.offer_eq h.distinct h.distinct' h.queue p priority
  have hs := h.setQueue ho.2 (h.distinct.offer _ _ _) (h.distinct'.offer _ _ _)
  have he : ∀ s : Station α, s.offer p priority
      = ({ s with queue := (s.queue.offer s.now p priority).1 },
        (s.queue.offer s.now p priority).2) := fun _ => rfl
  rw [h.now] at hs
  rw [he, he, h.now]
  exact ⟨ho.1, hs⟩

theorem poll (h : s.Resembles s') :
    s'.poll.2 = s.poll.2 ∧ s.poll.1.Resembles s'.poll.1 := by
  have hp : (s.queue.poll.1.cleanUp s.now, s.queue.poll.2)
      = (s'.queue.poll.1.cleanUp s.now, s'.queue.poll.2) := by
    rw [← DispatchQueue.cleanUp_poll, h.queue, DispatchQueue.cleanUp_poll]
  obtain ⟨hq, ho⟩ := Prod.mk.inj hp
  exact ⟨ho.symm, h.setQueue hq h.distinct.poll h.distinct'.poll⟩

theorem enter (h : s.Resembles s') (name : String) (heeds : Option Nat) :
    (s.enter name heeds).Resembles (s'.enter name heeds) :=
  h.map (f := fun s => s.enter name heeds) (fun _ => rfl) fun _ => rfl

theorem start (h : s.Resembles s') (name : String) (heeds : Bool) (signal : Nat) (second : Bool) :
    (s.start name heeds signal second).Resembles (s'.start name heeds signal second) := by
  have hr : s'.raised = s.raised := (congrArg Station.raised h.tidy).symm
  unfold Station.start
  dsimp only
  generalize (if heeds then some signal else none) = who
  have he := h.enter name who
  rw [h.waiters, hr, he.dismissed]
  split
  · exact he.finish _ none
  · exact he.take _

theorem pending (h : s.Resembles s') (n : Nat) : s'.pending n = s.pending n :=
  (congrArg (·.pending n) h.tidy).symm

theorem cancel (h : s.Resembles s') (name : String) :
    (s.abort name).1.Resembles (s'.abort name).1 := by
  have hn : s'.names = s.names := (congrArg Station.names h.tidy).symm
  unfold Station.abort
  rw [hn]
  split
  · exact h
  · next n _ =>
    have hs : Resembles { s with names := s.names.filter (·.1 != name) }
        { s' with names := s.names.filter (·.1 != name) } :=
      h.map (f := fun x => { x with names := s.names.filter (·.1 != name) }) (fun _ => rfl)
        fun _ => rfl
    dsimp only
    rw [hs.pending]
    split
    · exact (hs.abort n).map (f := fun x => x.close n) (fun _ => rfl) fun _ => rfl
    · exact hs

theorem raise (h : s.Resembles s') (k : Nat) : (s.raise k).1.Resembles (s'.raise k).1 := by
  have hd : s'.deserted.contains k = s.deserted.contains k :=
    (congrArg (·.deserted.contains k) h.tidy).symm
  unfold Station.raise
  rw [hd]
  split
  · exact h
  · exact h.map (f := fun s => { s with raised := k :: s.raised }.call k) (fun _ => rfl)
      fun _ => rfl

theorem leave (h : s.Resembles s') (k : Nat) : (s.leave k).1.Resembles (s'.leave k).1 :=
  h.map (f := fun s => (s.leave k).1) (fun _ => rfl) fun _ => rfl

end Resembles

/-! ### Housekeeping -/

/-- The station as it is when it has cleaned up at a time. -/
def tidyAt (s : Station α) (t : Nat) : Station α :=
  { s with now := t, queue := s.queue.cleanUp t, keepers := [] }

omit [BEq α] in
theorem tidyAt_later {t : Nat} (h : s.tidy = s'.tidy) (ht : s.now ≤ t) :
    s.tidyAt t = s'.tidyAt t := by
  have hone : ∀ s : Station α, s.now ≤ t → s.tidy.tidyAt t = s.tidyAt t := by
    intro s ht
    show ({ s with now := t, queue := (s.queue.cleanUp s.now).cleanUp t, keepers := [] }
      : Station α) = _
    rw [DispatchQueue.cleanUp_cleanUp _ ht]
    rfl
  have hnow : s.tidy.now = s'.tidy.now := congrArg Station.now h
  rw [← hone s ht, h, hone s' (Nat.le_trans (Nat.le_of_eq hnow.symm) ht)]

theorem lastPass_le {k : Keeper} {target last : Nat} (h : k.lastPass? target = some last) :
    last ≤ target := by
  unfold Keeper.lastPass? at h
  split at h
  · next hk =>
    have hle : k.next ≤ target := by simpa using ((Bool.and_eq_true _ _).mp hk).2
    have hdiv := Nat.div_mul_le_self (target - k.next) k.period
    obtain rfl := Option.some.inj h
    omega
  · cases h

omit [BEq α] in
/-- What keepers forget up to a time would be forgotten then. -/
theorem passes (target : Nat) : ∀ (ks : List Keeper) (s : Station α),
    (ks.foldl (pass target) s).tidyAt target = s.tidyAt target ∧
      (ks.foldl (pass target) s).queue.accepted.Sublist s.queue.accepted := by
  intro ks
  induction ks with
  | nil => exact fun s => ⟨rfl, .refl _⟩
  | cons k rest ih =>
    intro s
    have hone : (pass target s k).tidyAt target = s.tidyAt target ∧
        (pass target s k).queue.accepted.Sublist s.queue.accepted := by
      unfold pass
      split
      · next last hl =>
        refine ⟨?_, List.filter_sublist⟩
        show ({ s with
          now := target, queue := (s.queue.cleanUp last).cleanUp target, keepers := [] }
          : Station α) = _
        rw [DispatchQueue.cleanUp_cleanUp _ (lastPass_le hl)]
        rfl
      · exact ⟨rfl, .refl _⟩
    exact ⟨(ih _).1.trans hone.1, (ih _).2.trans hone.2⟩

namespace Resembles

/-- Time passes, whatever is forgotten meanwhile. -/
theorem advance (h : s.Resembles s') (ms : Nat) : (s.advance ms).Resembles (s'.advance ms) := by
  have hp := passes (s.now + ms) s.keepers { s with keepers := [] }
  have hp' := passes (s'.now + ms) s'.keepers { s' with keepers := [] }
  have ht : s.tidyAt (s.now + ms) = s'.tidyAt (s.now + ms) :=
    tidyAt_later h.tidy (Nat.le_add_right _ _)
  refine ⟨?_, h.distinct.sublist hp.2, h.distinct'.sublist hp'.2⟩
  refine hp.1.trans (ht.trans ?_)
  rw [← h.now]
  exact hp'.1.symm

/-- What does housekeeping alone cannot be told from nothing. -/
theorem keep {t : Station α} (h : s.Resembles s') (ht : t.tidy = s.tidy)
    (ha : t.queue.accepted.Sublist s.queue.accepted) : t.Resembles s' :=
  ⟨ht.trans h.tidy, h.distinct.sublist ha, h.distinct'⟩

end Resembles

/-- Does a move do anything but housekeeping? -/
def Move.serves : Move α → Bool
  | .cleanUp | .keep _ | .stopKeeper => false
  | _ => true

namespace Ledger

variable {L L' : Ledger α}

/-- Two stations differ in what may be forgotten, and the same has happened at them. -/
structure Resembles (L L' : Ledger α) : Prop where
  station : L.station.Resembles L'.station
  accepted : L'.accepted = L.accepted
  handed : L'.handed = L.handed
  joined : L'.joined = L.joined

/-- A move that does more than housekeeping does the same at both. -/
theorem Resembles.play [PartialEquivBEq α] (h : L.Resembles L') {m : Move α} (hm : m.serves = true) :
    (L.play m).Resembles (L'.play m) := by
  have hs : (L.station.play m).Resembles (L'.station.play m) := by
    cases m with
    | offer p priority => exact (h.station.offer p priority).2
    | poll => exact h.station.poll.2
    | start name heeds signal second => exact h.station.start name heeds signal second
    | abort name => exact h.station.cancel name
    | raise signal => exact h.station.raise signal
    | leave signal => exact h.station.leave signal
    | advance ms => exact h.station.advance ms
    | turn n second => exact h.station.turn n second
    | cleanUp => cases hm
    | keep period => cases hm
    | stopKeeper => cases hm
  have haccepts : L'.station.accepts m = L.station.accepts m := by
    cases m with
    | offer p priority =>
      unfold Station.accepts
      dsimp only
      rw [(h.station.offer p priority).1]
    | _ => rfl
  have hpolls : L'.station.polls m = L.station.polls m := by
    cases m with
    | poll =>
      unfold Station.polls
      dsimp only
      rw [h.station.poll.1]
    | _ => rfl
  have hgains : L'.station.gains (L'.station.play m) = L.station.gains (L.station.play m) := by
    unfold Station.gains
    rw [hs.finished, h.station.finished]
  have hjoins : L'.station.joins m = L.station.joins m := by
    unfold Station.joins
    cases m with
    | start name heeds signal second =>
      dsimp only
      rw [h.station.waiters, hs.pending]
    | turn n second =>
      dsimp only
      rw [h.station.woken, hs.pending]
    | _ => rfl
  refine ⟨hs, ?_, ?_, ?_⟩
  · show L'.accepted ++ _ = L.accepted ++ _
    rw [h.accepted, haccepts]
  · show L'.handed ++ (_ ++ _) = L.handed ++ (_ ++ _)
    rw [h.handed, hpolls, hgains]
  · show L'.joined ++ _ = L.joined ++ _
    rw [h.joined, hjoins]

/-- A move that does housekeeping alone cannot be told from none. -/
theorem Resembles.keep (h : L.Resembles L') {m : Move α} (hm : m.serves = false) :
    (L.play m).Resembles L' := by
  have hone : (L.station.play m).tidy = L.station.tidy ∧
      (L.station.play m).queue.accepted.Sublist L.station.queue.accepted ∧
      L.station.accepts m = [] ∧ L.station.hands m = [] ∧ L.station.joins m = [] := by
    cases m with
    | cleanUp =>
      refine ⟨?_, List.filter_sublist, rfl, gains_same rfl, rfl⟩
      show ({ L.station.tidy with
        queue := (L.station.queue.cleanUp L.station.now).cleanUp L.station.now }
        : Station α) = _
      rw [DispatchQueue.cleanUp_cleanUp _ (Nat.le_refl _)]
      rfl
    | keep period => exact ⟨rfl, .refl _, rfl, gains_same rfl, rfl⟩
    | stopKeeper => exact ⟨rfl, .refl _, rfl, gains_same rfl, rfl⟩
    | _ => cases hm
  obtain ⟨ht, hq, ha, hh, hj⟩ := hone
  refine ⟨h.station.keep ht hq, ?_, ?_, ?_⟩
  · show L'.accepted = L.accepted ++ L.station.accepts m
    rw [ha, List.append_nil, h.accepted]
  · show L'.handed = L.handed ++ L.station.hands m
    rw [hh, List.append_nil, h.handed]
  · show L'.joined = L.joined ++ L.station.joins m
    rw [hj, List.append_nil, h.joined]

/-- **Housekeeping moves make no difference, whichever there are and wherever they come.** -/
theorem Resembles.after [PartialEquivBEq α] : ∀ (ms : List (Move α)) {L L' : Ledger α}, L.Resembles L' →
    (L.after ms).Resembles (L'.after (ms.filter Move.serves)) := by
  intro ms
  induction ms with
  | nil => exact fun h => h
  | cons m rest ih =>
    intro L L' h
    cases hm : m.serves with
    | false =>
      rw [List.filter_cons_of_neg (by rw [hm]; exact Bool.false_ne_true)]
      exact ih (h.keep hm)
    | true =>
      rw [List.filter_cons_of_pos hm]
      exact ih (h.play hm)

theorem resembles_after [PartialEquivBEq α] (window : Nat) {ms ms' : List (Move α)}
    (h : ms.filter Move.serves = ms'.filter Move.serves) :
    ((ofWindow window).after ms).Resembles ((ofWindow window).after ms') := by
  have hw : (ofWindow window : Ledger α).Resembles (ofWindow window) :=
    ⟨resembles_ofWindow window, rfl, rfl, rfl⟩
  have h₁ := Resembles.after ms hw
  have h₂ := Resembles.after ms' hw
  rw [h] at h₁
  exact ⟨⟨h₁.station.tidy.trans h₂.station.tidy.symm, h₁.station.distinct, h₂.station.distinct⟩,
    h₂.accepted.symm.trans h₁.accepted, h₂.handed.symm.trans h₁.handed,
    h₂.joined.symm.trans h₁.joined⟩

/-- The same was accepted, handed out and waited for, and the same would be. -/
structure Concurs (L L' : Ledger α) : Prop where
  accepted : L'.accepted = L.accepted
  handed : L'.handed = L.handed
  joined : L'.joined = L.joined
  finished : L'.station.finished = L.station.finished
  entries : L'.station.queue.entries = L.station.queue.entries
  offers : ∀ p priority, (L'.station.offer p priority).2 = (L.station.offer p priority).2
  polls : L'.station.poll.2 = L.station.poll.2

theorem Resembles.concurs [PartialEquivBEq α] (h : L.Resembles L') : L.Concurs L' where
  accepted := h.accepted
  handed := h.handed
  joined := h.joined
  finished := h.station.finished
  entries := (congrArg (·.queue.entries) h.station.tidy).symm
  offers := fun p priority => (h.station.offer p priority).1
  polls := h.station.poll.1

end Ledger

end Station

end ReactiveRules
