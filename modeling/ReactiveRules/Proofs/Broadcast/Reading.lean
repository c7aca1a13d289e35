import ReactiveRules.Broadcast.Channel

/-!
# `Proofs/Broadcast/Reading.lean` — one read, against the stream

A channel keeps the end of the stream of all that was sent through it (`Channel.Carries`), and a
receiver stands at a place of that stream. A read moves it forward. **`Reads` says what a read comes
to**: the event that it gives is the last one it moves over and passes the filter, and any other event
that passes and is moved over had been dropped by the channel.

The two ways to read are the same for a receiver that does not lag (`receiveFrom_of_oldest_le`), so
what is known of one is known of the other.
-/

set_option autoImplicit false

namespace ReactiveRules

/-- The event that was received, if there was one. -/
def Received.message? {κ : Type} : Received κ → Option (Message κ)
  | .message m => some m
  | .pending | .closed => none

namespace Channel

variable {κ : Type} {c : Channel κ} {stream : List (Message κ)} {r r' r'' : Receiver}

/-! ## Capacity -/

open Decimal (twoTo)

/-- A channel has room for the least power of two that is not less than what was asked for. -/
theorem roundUp_least (n : Nat) :
    (∃ e, roundUp n = twoTo e) ∧ n ≤ roundUp n ∧ ∀ e, n ≤ twoTo e → roundUp n ≤ twoTo e := by
  unfold roundUp
  split
  · next hn => exact ⟨⟨0, rfl⟩, hn, fun e _ => Nat.one_le_two_pow⟩
  · next hn =>
    have hlow : twoTo (n - 1).log2 ≤ n - 1 := Nat.log2_self_le (by omega)
    have hhigh : n - 1 < twoTo ((n - 1).log2 + 1) := Nat.lt_log2_self
    refine ⟨⟨_, rfl⟩, by omega, fun e he => ?_⟩
    have hlt : twoTo (n - 1).log2 < twoTo e := by omega
    exact Nat.pow_le_pow_right (by decide) ((Nat.pow_lt_pow_iff_right (by decide)).mp hlt)

theorem roundUp_pos (n : Nat) : 0 < roundUp n := by
  obtain ⟨⟨e, he⟩, -⟩ := roundUp_least n
  rw [he]
  exact Nat.two_pow_pos e

/-! ## The channel and its stream -/

/-- The channel keeps the end of the stream. -/
structure Carries (c : Channel κ) (stream : List (Message κ)) : Prop where
  room : 0 < c.capacity
  sent : c.sent = stream.length
  kept : c.kept = stream.drop (stream.length - c.capacity)

theorem carries_ofCapacity (n : Nat) : (ofCapacity n : Channel κ).Carries [] :=
  ⟨roundUp_pos n, rfl, List.drop_nil.symm⟩

/-- What is sent is added to the stream, if anyone is there. -/
theorem Carries.send (h : c.Carries stream) (hr : c.receivers ≠ 0) (m : Message κ) :
    (c.send m).1.Carries (stream ++ [m]) := by
  unfold Channel.send
  rw [if_neg (by simpa using hr)]
  refine ⟨h.room, by simp [h.sent], ?_⟩
  show c.kept.drop (c.kept.length + 1 - c.capacity) ++ [m]
    = (stream ++ [m]).drop ((stream ++ [m]).length - c.capacity)
  have hroom := h.room
  rw [h.kept, List.length_drop, List.drop_drop, List.length_append, List.length_singleton,
    List.drop_append_of_le_length (by omega)]
  congr 2
  omega

theorem Carries.oldest_eq (h : c.Carries stream) : c.oldest = stream.length - c.capacity := by
  unfold oldest
  rw [h.sent, h.kept, List.length_drop]
  omega

theorem Carries.kept_getElem? (h : c.Carries stream) {i : Nat} (hi : c.oldest ≤ i) :
    c.kept[i - c.oldest]? = stream[i]? := by
  rw [h.kept, List.getElem?_drop, ← h.oldest_eq]
  congr 1
  omega

/-- A receiver that looks lags, meets the event at its place, or is at the end of the stream. -/
theorem Carries.glance_cases (h : c.Carries stream) (r : Receiver) :
    (r.next < c.oldest ∧ c.glance r = (.lagged, { r with next := c.oldest })) ∨
    (c.oldest ≤ r.next ∧ ∃ m, stream[r.next]? = some m ∧
      c.glance r = (.message m, { r with next := r.next + 1 })) ∨
    (c.oldest ≤ r.next ∧ stream.length ≤ r.next ∧
      c.glance r = (if c.closed then .closed else .nothing, r)) := by
  unfold glance
  by_cases hlag : r.next < c.oldest
  · exact .inl ⟨hlag, if_pos hlag⟩
  · have hle : c.oldest ≤ r.next := Nat.le_of_not_lt hlag
    rw [if_neg hlag, h.kept_getElem? hle]
    cases hm : stream[r.next]? with
    | some m => exact .inr (.inl ⟨hle, m, rfl, rfl⟩)
    | none => exact .inr (.inr ⟨hle, List.getElem?_eq_none_iff.mp hm, rfl⟩)

/-! ## What a read comes to -/

/-- A receiver has read on, and got an event or none. -/
structure Reads (c : Channel κ) (stream : List (Message κ)) (r r' : Receiver)
    (got : Option (Message κ)) : Prop where
  filter : r'.filter = r.filter
  le : r.next ≤ r'.next
  le_end : r.next ≤ stream.length → r'.next ≤ stream.length
  /-- What it got passes its filter, and is the last event it moved over. -/
  found : ∀ m, got = some m → r.next < r'.next ∧ stream[r'.next - 1]? = some m ∧
    r.filter.passes m.event = true
  /-- What else it moved over did not pass, or had been dropped. -/
  skipped : ∀ i m, r.next ≤ i → i < r'.next → stream[i]? = some m →
    r.filter.passes m.event = true → (got = some m ∧ r'.next = i + 1) ∨
      i + c.capacity < stream.length

theorem Reads.refl (c : Channel κ) (stream : List (Message κ)) (r : Receiver) :
    c.Reads stream r r none where
  filter := rfl
  le := Nat.le_refl _
  le_end := id
  found := fun _ h => by cases h
  skipped := fun _ _ hi hlt => absurd hlt (Nat.not_lt.mpr hi)

/-- Reading on after having got nothing. -/
theorem Reads.trans {got : Option (Message κ)} (h : c.Reads stream r r' none)
    (h' : c.Reads stream r' r'' got) : c.Reads stream r r'' got where
  filter := h'.filter.trans h.filter
  le := Nat.le_trans h.le h'.le
  le_end := fun hend => h'.le_end (h.le_end hend)
  found := fun m hm => by
    obtain ⟨hlt, hat, hp⟩ := h'.found m hm
    exact ⟨Nat.lt_of_le_of_lt h.le hlt, hat, by rwa [← h.filter]⟩
  skipped := fun i m hi hlt hat hp => by
    by_cases hi' : i < r'.next
    · rcases h.skipped i m hi hi' hat hp with ⟨hnone, -⟩ | hlost
      · cases hnone
      · exact .inr hlost
    · exact h'.skipped i m (Nat.le_of_not_lt hi') hlt hat (by rwa [h.filter])

/-- A lagging receiver moves over what has been dropped. -/
theorem Carries.reads_lag (h : c.Carries stream) (hlag : r.next < c.oldest) :
    c.Reads stream r { r with next := c.oldest } none where
  filter := rfl
  le := Nat.le_of_lt hlag
  le_end := fun _ => by
    show c.oldest ≤ stream.length
    rw [h.oldest_eq]
    omega
  found := fun _ hm => by cases hm
  skipped := fun i m _ hlt _ _ => by
    have hi : i < c.oldest := hlt
    rw [h.oldest_eq] at hi
    exact .inr (by omega)

/-- A receiver moves over one event, which it gets if the event passes. -/
theorem reads_one {m : Message κ} (hm : stream[r.next]? = some m) :
    c.Reads stream r { r with next := r.next + 1 }
      (if r.filter.passes m.event then some m else none) where
  filter := rfl
  le := Nat.le_succ _
  le_end := fun _ => (List.getElem?_eq_some_iff.mp hm).1
  found := fun m' hm' => by
    split at hm'
    · next hp =>
      cases hm'
      exact ⟨Nat.lt_succ_self _, hm, hp⟩
    · cases hm'
  skipped := fun i m' hi hlt hat hp => by
    have hlt' : i < r.next + 1 := hlt
    obtain rfl : i = r.next := by omega
    obtain rfl : m = m' := Option.some.inj (hm.symm.trans hat)
    exact .inl ⟨if_pos hp, rfl⟩

/-! ## Reading without waiting -/

theorem readFrom_reads (h : c.Carries stream) : ∀ (fuel : Nat) (r : Receiver),
    c.Reads stream r (c.readFrom fuel r).2 (c.readFrom fuel r).1 := by
  intro fuel
  induction fuel with
  | zero => exact fun r => .refl c stream r
  | succ fuel ih =>
    intro r
    rcases h.glance_cases r with ⟨hlag, hg⟩ | ⟨-, m, hm, hg⟩ | ⟨-, -, hg⟩ <;>
      simp only [readFrom, hg]
    · exact h.reads_lag hlag
    · have hone := reads_one (c := c) hm
      split
      · next hp => rwa [if_pos hp] at hone
      · next hp =>
        rw [if_neg hp] at hone
        exact hone.trans (ih _)
    · cases c.closed <;> exact .refl c stream r

/-- A receiver that does not lag and is given enough steps gets an event unless it is at the end. -/
theorem readFrom_exhausts (h : c.Carries stream) : ∀ (fuel : Nat) (r : Receiver),
    c.oldest ≤ r.next → r.next ≤ stream.length → stream.length - r.next < fuel →
    (c.readFrom fuel r).1 = none → (c.readFrom fuel r).2.next = stream.length := by
  intro fuel
  induction fuel with
  | zero => intro r _ _ hfuel; omega
  | succ fuel ih =>
    intro r hle hend hfuel
    rcases h.glance_cases r with ⟨hlag, -⟩ | ⟨-, m, hm, hg⟩ | ⟨-, hat, hg⟩
    · omega
    · have hlt : r.next < stream.length := (List.getElem?_eq_some_iff.mp hm).1
      simp only [readFrom, hg]
      split
      · exact fun hnone => by cases hnone
      · refine ih { r with next := r.next + 1 } (Nat.le_succ_of_le hle) hlt ?_
        show stream.length - (r.next + 1) < fuel
        omega
    · simp only [readFrom, hg]
      intro _
      cases c.closed <;> exact Nat.le_antisymm hend hat

/-- Whoever gets nothing is at the end of the stream, unless it lagged and is now at the oldest event
kept. -/
theorem read?_none (h : c.Carries stream) (hend : r.next ≤ stream.length)
    (hnone : (c.read? r).1 = none) : (c.read? r).2.next = stream.length ∨
      r.next < c.oldest ∧ (c.read? r).2.next = c.oldest := by
  by_cases hlag : r.next < c.oldest
  · rcases h.glance_cases r with ⟨-, hg⟩ | ⟨hle, -⟩ | ⟨hle, -⟩
    · refine .inr ⟨hlag, ?_⟩
      simp only [read?, patience, readFrom, hg]
    · omega
    · omega
  · have hle : c.oldest ≤ r.next := Nat.le_of_not_lt hlag
    refine .inl (readFrom_exhausts h _ r hle hend ?_ hnone)
    rw [h.oldest_eq] at hle
    show stream.length - r.next < c.kept.length + 2
    rw [h.kept, List.length_drop]
    omega

/-! ## Reading ready to wait -/

/-- A receiver that does not lag reads the same way whether it would wait or not. -/
theorem receiveFrom_of_oldest_le (h : c.Carries stream) : ∀ (fuel : Nat) (r : Receiver),
    c.oldest ≤ r.next →
    ((c.receiveFrom fuel r).1.message?, (c.receiveFrom fuel r).2) = c.readFrom fuel r := by
  intro fuel
  induction fuel with
  | zero => exact fun r _ => rfl
  | succ fuel ih =>
    intro r hle
    rcases h.glance_cases r with ⟨hlag, -⟩ | ⟨-, m, -, hg⟩ | ⟨-, -, hg⟩
    · omega
    · simp only [receiveFrom, readFrom, hg]
      split
      · rfl
      · exact ih _ (Nat.le_succ_of_le hle)
    · simp only [receiveFrom, readFrom, hg]
      cases c.closed <;> rfl

/-- A receiver that lags goes on from the oldest event kept. -/
theorem receiveFrom_of_lag (h : c.Carries stream) (fuel : Nat) (hlag : r.next < c.oldest) :
    c.receiveFrom (fuel + 1) r = c.receiveFrom fuel { r with next := c.oldest } := by
  rcases h.glance_cases r with ⟨-, hg⟩ | ⟨hle, -⟩ | ⟨hle, -⟩
  · simp only [receiveFrom, hg]
  · omega
  · omega

/-- What a receiver that is ready to wait gets at once. -/
def receive? (c : Channel κ) (r : Receiver) : Option (Message κ) × Receiver :=
  ((c.receive r).1.message?, (c.receive r).2)

/-- Reading ready to wait is passing over a lag, if there is one, and reading without waiting. -/
theorem receive?_eq_readFrom (h : c.Carries stream) (r : Receiver) :
    ∃ r₀ fuel, c.Reads stream r r₀ none ∧ c.oldest ≤ r₀.next ∧ c.kept.length < fuel ∧
      c.receive? r = c.readFrom fuel r₀ := by
  by_cases hlag : r.next < c.oldest
  · refine ⟨{ r with next := c.oldest }, c.kept.length + 1, h.reads_lag hlag, Nat.le_refl _,
      Nat.lt_succ_self _, ?_⟩
    rw [receive?, receive, patience, receiveFrom_of_lag h _ hlag]
    exact receiveFrom_of_oldest_le h _ _ (Nat.le_refl _)
  · have hle : c.oldest ≤ r.next := Nat.le_of_not_lt hlag
    exact ⟨r, c.patience, .refl c stream r, hle, by unfold patience; omega,
      receiveFrom_of_oldest_le h _ r hle⟩

theorem receive?_reads (h : c.Carries stream) (r : Receiver) :
    c.Reads stream r (c.receive? r).2 (c.receive? r).1 := by
  obtain ⟨r₀, fuel, hr, -, -, heq⟩ := receive?_eq_readFrom h r
  rw [heq]
  exact hr.trans (readFrom_reads h fuel r₀)

/-- Whoever would have to wait is at the end of the stream. -/
theorem receive?_none (h : c.Carries stream) (hend : r.next ≤ stream.length)
    (hnone : (c.receive? r).1 = none) : (c.receive? r).2.next = stream.length := by
  obtain ⟨r₀, fuel, hr, hle, hfuel, heq⟩ := receive?_eq_readFrom h r
  rw [heq] at hnone ⊢
  refine readFrom_exhausts h fuel r₀ hle (hr.le_end hend) ?_ hnone
  rw [h.oldest_eq] at hle
  rw [h.kept, List.length_drop] at hfuel
  omega

end Channel

end ReactiveRules
