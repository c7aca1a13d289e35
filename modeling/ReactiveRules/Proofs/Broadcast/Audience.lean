import Mathlib.Data.List.Induction
import ReactiveRules.Proofs.Broadcast.Reading

/-!
# `Proofs/Broadcast/Audience.lean` — many receivers, one stream

An `Audience` is a channel with all who ever joined it, each with what it got, and all that was ever
published. Its moves are those of anybody who has to do with a channel, in any order.

**Every reader gets what was published since it joined and passes its filter, in order and once**, but
for events it came too late for: when it moved over them, the channel had taken in as many newer ones
as it has room for (`Audience.Overrun`). And **it makes no difference to a reader how the others read**
(`Audience.Alike`), because a read changes nobody but the one who reads.
-/

set_option autoImplicit false

namespace ReactiveRules

/-! ## Readers -/

/-- One who has joined a channel, and what it has got. -/
structure Reader (κ : Type) where
  receiver : Receiver
  /-- The filter it joined with. -/
  wants : EventFilter
  /-- How many events had been published when it joined. -/
  since : Nat
  /-- Its place when it joined. -/
  origin : Nat
  /-- What it got, each event with its number among all that were published. -/
  received : List (Nat × Message κ) := []
  here : Bool := true

namespace Reader

variable {κ : Type} {c : Channel κ} {stream published : List (Message κ)} {r : Reader κ}

/-- How many of the published events are behind it. -/
def reached (r : Reader κ) : Nat := r.since + (r.receiver.next - r.origin)

/-- The reader after a read. -/
def reading (r : Reader κ) (got : Option (Message κ) × Receiver) : Reader κ :=
  let r' := { r with receiver := got.2 }
  { r' with received := r.received ++ got.1.toList.map fun m => (r'.reached - 1, m) }

/-- What a reader has got are events published since it joined, that pass and are behind it. -/
structure Sound (r : Reader κ) (published : List (Message κ)) : Prop where
  filter : r.receiver.filter = r.wants
  origin_le : r.origin ≤ r.receiver.next
  reached_le : r.reached ≤ published.length
  ordered : (r.received.map (·.1)).Pairwise (· < ·)
  found : ∀ p ∈ r.received, r.since ≤ p.1 ∧ p.1 < r.reached ∧ published[p.1]? = some p.2 ∧
    r.wants.passes p.2.event = true

/-- From its first place on, the stream is what was published since the reader joined. -/
structure Tuned (r : Reader κ) (stream published : List (Message κ)) : Prop where
  origin_le : r.origin ≤ stream.length
  since_le : r.since ≤ published.length
  le_end : r.receiver.next ≤ stream.length
  same : stream.drop r.origin = published.drop r.since

theorem Sound.publish (h : r.Sound published) (m : Message κ) : r.Sound (published ++ [m]) where
  filter := h.filter
  origin_le := h.origin_le
  reached_le := by
    rw [List.length_append]
    exact Nat.le_add_right_of_le h.reached_le
  ordered := h.ordered
  found := fun p hp => by
    obtain ⟨hs, hlt, hat, hpass⟩ := h.found p hp
    refine ⟨hs, hlt, ?_, hpass⟩
    rw [List.getElem?_append_left (Nat.lt_of_lt_of_le hlt h.reached_le)]
    exact hat

theorem Tuned.publish (h : r.Tuned stream published) (m : Message κ) :
    r.Tuned (stream ++ [m]) (published ++ [m]) where
  origin_le := by
    rw [List.length_append]
    exact Nat.le_add_right_of_le h.origin_le
  since_le := by
    rw [List.length_append]
    exact Nat.le_add_right_of_le h.since_le
  le_end := by
    rw [List.length_append]
    exact Nat.le_add_right_of_le h.le_end
  same := by
    rw [List.drop_append_of_le_length h.origin_le, List.drop_append_of_le_length h.since_le, h.same]

theorem Tuned.length_sub (h : r.Tuned stream published) :
    stream.length - r.origin = published.length - r.since := by
  rw [← List.length_drop, h.same, List.length_drop]

theorem Tuned.getElem? (h : r.Tuned stream published) (j : Nat) :
    stream[r.origin + j]? = published[r.since + j]? := by
  rw [← List.getElem?_drop, h.same, List.getElem?_drop]

/-- At the end of the stream, everything that was published is behind the reader. -/
theorem Tuned.reached_eq (h : r.Tuned stream published) (hend : r.receiver.next = stream.length) :
    r.reached = published.length := by
  have hlen := h.length_sub
  have hsince := h.since_le
  unfold reached
  omega

section Reading

variable {got : Option (Message κ) × Receiver}

theorem received_reading (r : Reader κ) (got : Option (Message κ) × Receiver) :
    (r.reading got).received
      = r.received ++ got.1.toList.map fun m => ((r.reading got).reached - 1, m) := rfl

theorem le_reached_reading (hread : c.Reads stream r.receiver got.2 got.1) :
    r.reached ≤ (r.reading got).reached := by
  have hle := hread.le
  show r.since + (r.receiver.next - r.origin) ≤ r.since + (got.2.next - r.origin)
  omega

theorem Tuned.reading (h : r.Tuned stream published)
    (hread : c.Reads stream r.receiver got.2 got.1) : (r.reading got).Tuned stream published :=
  ⟨h.origin_le, h.since_le, hread.le_end h.le_end, h.same⟩

/-- What a read gives is the event behind which the reader then is. -/
theorem Sound.found_reading (h : r.Sound published) (ht : r.Tuned stream published)
    (hread : c.Reads stream r.receiver got.2 got.1) {m : Message κ} (hm : got.1 = some m) :
    r.reached ≤ (r.reading got).reached - 1 ∧ 0 < (r.reading got).reached ∧
      published[(r.reading got).reached - 1]? = some m ∧ r.wants.passes m.event = true := by
  obtain ⟨hlt, hat, hpass⟩ := hread.found m hm
  have ho := h.origin_le
  have hreached : (r.reading got).reached = r.since + (got.2.next - r.origin) := rfl
  have hold : r.reached = r.since + (r.receiver.next - r.origin) := rfl
  refine ⟨by omega, by omega, ?_, by rwa [← h.filter]⟩
  have hplace : (r.reading got).reached - 1 = r.since + (got.2.next - 1 - r.origin) := by omega
  have hback : r.origin + (got.2.next - 1 - r.origin) = got.2.next - 1 := by omega
  rw [hplace, ← ht.getElem?, hback]
  exact hat

theorem Sound.reading (h : r.Sound published) (ht : r.Tuned stream published)
    (hread : c.Reads stream r.receiver got.2 got.1) : (r.reading got).Sound published := by
  have hle := le_reached_reading hread
  refine ⟨hread.filter.trans h.filter, Nat.le_trans h.origin_le hread.le, ?_, ?_, ?_⟩
  · have ho := h.origin_le
    have hlen := ht.length_sub
    have hend := hread.le_end ht.le_end
    have hsince := ht.since_le
    show r.since + (got.2.next - r.origin) ≤ published.length
    omega
  · rw [received_reading, List.map_append, List.pairwise_append]
    refine ⟨h.ordered, ?_, fun i hi j hj => ?_⟩
    · cases got.1 <;> simp
    · obtain ⟨p, hp, rfl⟩ := List.mem_map.mp hi
      obtain ⟨-, hlt, -⟩ := h.found p hp
      cases hm : got.1 with
      | none => simp [hm] at hj
      | some m =>
        obtain ⟨hnew, -⟩ := h.found_reading ht hread hm
        obtain rfl : j = (r.reading got).reached - 1 := by simpa [hm] using hj
        omega
  · intro p hp
    rw [received_reading] at hp
    rcases List.mem_append.mp hp with hp | hp
    · obtain ⟨hs, hlt, hat, hpass⟩ := h.found p hp
      exact ⟨hs, Nat.lt_of_lt_of_le hlt hle, hat, hpass⟩
    · cases hm : got.1 with
      | none => simp [hm] at hp
      | some m =>
        obtain ⟨hnew, hpos, hat, hpass⟩ := h.found_reading ht hread hm
        obtain rfl : p = ((r.reading got).reached - 1, m) := by simpa [hm] using hp
        have hs : r.since ≤ r.reached := Nat.le_add_right _ _
        exact ⟨Nat.le_trans hs hnew, Nat.sub_lt hpos Nat.one_pos, hat, hpass⟩

/-- An event that passes and is moved over is received, unless the channel's room has been filled with
newer ones. -/
theorem Sound.over_reading (h : r.Sound published) (ht : r.Tuned stream published)
    (hread : c.Reads stream r.receiver got.2 got.1) {i : Nat} {m : Message κ} (hi : r.reached ≤ i)
    (hlt : i < (r.reading got).reached) (hat : published[i]? = some m)
    (hpass : r.wants.passes m.event = true) :
    (i, m) ∈ (r.reading got).received ∨ c.capacity ≤ (published.drop (i + 1)).length := by
  have ho := h.origin_le
  have hlen := ht.length_sub
  have hreached : (r.reading got).reached = r.since + (got.2.next - r.origin) := rfl
  have hold : r.reached = r.since + (r.receiver.next - r.origin) := rfl
  -- the place in the stream of the event with number `i`
  obtain ⟨j, rfl⟩ : ∃ j, i = r.since + j := ⟨i - r.since, by omega⟩
  have hplace : stream[r.origin + j]? = some m := (ht.getElem? j).trans hat
  rcases hread.skipped (r.origin + j) m (by omega) (by omega) hplace (by rwa [h.filter]) with
    ⟨hgot, hnext⟩ | hlost
  · refine .inl (List.mem_append_right _ ?_)
    have hnum : (r.reading got).reached - 1 = r.since + j := by omega
    show (r.since + j, m) ∈ got.1.toList.map fun m => ((r.reading got).reached - 1, m)
    simp [hgot, hnum]
  · rw [List.length_drop]
    exact .inr (by omega)

end Reading

end Reader

/-! ## Audiences -/

/-- A channel, those who joined it, and what was published. -/
structure Audience (κ : Type) where
  channel : Channel κ
  /-- All events that were published, in order. -/
  published : List (Message κ) := []
  /-- All who ever joined, in order. -/
  readers : List (Reader κ) := []

namespace Audience

variable {κ : Type} {A A' : Audience κ} {stream : List (Message κ)} {k : Nat} {r r' : Reader κ}

inductive Move (κ : Type) where
  | join (filter : EventFilter)
  | leave (k : Nat)
  | publish (m : Message κ)
  /-- A reader reads without waiting. -/
  | look (k : Nat)
  /-- A reader reads ready to wait. One that would wait has got nothing, and reads on when it is told
  to. -/
  | wait (k : Nat)
  | close

def ofCapacity (n : Nat) : Audience κ := { channel := .ofCapacity n }

/-- The reader of a number, unless it has left. -/
def present? (A : Audience κ) (k : Nat) : Option (Reader κ) := (A.readers[k]?).filter (·.here)

def read (A : Audience κ) (k : Nat) (f : Receiver → Option (Message κ) × Receiver) : Audience κ :=
  match A.present? k with
  | some r => { A with readers := A.readers.set k (r.reading (f r.receiver)) }
  | none => A

/-- Nobody joins a closed channel. -/
def join (A : Audience κ) (filter : EventFilter) : Audience κ :=
  if A.channel.closed then A
  else
    let (channel, receiver) := A.channel.join filter
    let newcomer : Reader κ :=
      { receiver, wants := filter, since := A.published.length, origin := receiver.next }
    { A with channel, readers := A.readers ++ [newcomer] }

def leave (A : Audience κ) (k : Nat) : Audience κ :=
  match A.present? k with
  | some r =>
    { A with channel := A.channel.leave, readers := A.readers.set k { r with here := false } }
  | none => A

/-- Nothing is published in a closed channel. -/
def publish (A : Audience κ) (m : Message κ) : Audience κ :=
  if A.channel.closed then A
  else { A with channel := (A.channel.send m).1, published := A.published ++ [m] }

def play (A : Audience κ) : Move κ → Audience κ
  | .join filter => A.join filter
  | .leave k => A.leave k
  | .publish m => A.publish m
  | .look k => A.read k A.channel.read?
  | .wait k => A.read k A.channel.receive?
  | .close => { A with channel := A.channel.close }

def after (A : Audience κ) (ms : List (Move κ)) : Audience κ := ms.foldl play A

theorem after_concat (A : Audience κ) (ms : List (Move κ)) (m : Move κ) :
    A.after (ms ++ [m]) = (A.after ms).play m := by
  rw [after, List.foldl_append]
  rfl

theorem present?_eq_some : A.present? k = some r ↔ A.readers[k]? = some r ∧ r.here = true := by
  simp [present?, Option.filter_eq_some_iff]

/-! ## What every audience satisfies -/

/-- The channel keeps the end of a stream that all who are there follow. -/
structure Sound (A : Audience κ) (stream : List (Message κ)) : Prop where
  carries : A.channel.Carries stream
  present : A.channel.receivers = A.readers.countP (·.here)
  readers : ∀ r ∈ A.readers, r.Sound A.published
  tuned : ∀ r ∈ A.readers, r.here = true → r.Tuned stream A.published

theorem sound_ofCapacity (n : Nat) : (ofCapacity n : Audience κ).Sound [] where
  carries := Channel.carries_ofCapacity n
  present := rfl
  readers := fun _ hr => by cases hr
  tuned := fun _ hr => by cases hr

theorem Sound.join (h : A.Sound stream) (filter : EventFilter) :
    (A.join filter).Sound stream := by
  unfold Audience.join
  split
  · exact h
  · have hnext : A.channel.sent = stream.length := h.carries.sent
    refine ⟨⟨h.carries.room, h.carries.sent, h.carries.kept⟩, ?_, ?_, ?_⟩
    · show A.channel.receivers + 1 = _
      rw [List.countP_append, h.present]
      rfl
    · intro r hr
      rcases List.mem_append.mp hr with hr | hr
      · exact h.readers r hr
      · obtain rfl := List.mem_singleton.mp hr
        refine ⟨rfl, Nat.le_refl _, ?_, List.Pairwise.nil, fun _ hp => by cases hp⟩
        show A.published.length + (A.channel.sent - A.channel.sent) ≤ A.published.length
        omega
    · intro r hr hhere
      rcases List.mem_append.mp hr with hr | hr
      · exact h.tuned r hr hhere
      · obtain rfl := List.mem_singleton.mp hr
        refine ⟨Nat.le_of_eq hnext, Nat.le_refl _, Nat.le_of_eq hnext, ?_⟩
        show stream.drop A.channel.sent = A.published.drop A.published.length
        rw [hnext, List.drop_length, List.drop_length]

theorem Sound.leave (h : A.Sound stream) (k : Nat) : (A.leave k).Sound stream := by
  unfold Audience.leave
  split
  · next r hp =>
    obtain ⟨hk, hhere⟩ := present?_eq_some.mp hp
    obtain ⟨hlt, hget⟩ := List.getElem?_eq_some_iff.mp hk
    refine ⟨⟨h.carries.room, h.carries.sent, h.carries.kept⟩, ?_, ?_, ?_⟩
    · show A.channel.receivers - 1 = (A.readers.set k { r with here := false }).countP (·.here)
      rw [List.countP_set hlt, hget, if_pos hhere, h.present]
      rfl
    · intro r' hr'
      rcases List.mem_or_eq_of_mem_set hr' with hr' | rfl
      · exact h.readers r' hr'
      · have hr := h.readers r (List.mem_of_getElem? hk)
        exact ⟨hr.filter, hr.origin_le, hr.reached_le, hr.ordered, hr.found⟩
    · intro r' hr' hhere'
      rcases List.mem_or_eq_of_mem_set hr' with hr' | rfl
      · exact h.tuned r' hr' hhere'
      · cases hhere'
  · exact h

theorem Sound.publish (h : A.Sound stream) (m : Message κ) :
    ∃ stream', (A.publish m).Sound stream' := by
  unfold Audience.publish
  split
  · exact ⟨stream, h⟩
  · by_cases hnone : A.channel.receivers = 0
    · -- nobody is there: the event is lost, and the stream stays as it is
      have hsend : (A.channel.send m).1 = A.channel := by
        unfold Channel.send
        rw [if_pos (by simpa using hnone)]
      have habsent : ∀ r ∈ A.readers, r.here ≠ true :=
        List.countP_eq_zero.mp (h.present.symm.trans hnone)
      refine ⟨stream, ?_, ?_, fun r hr => (h.readers r hr).publish m, fun r hr hhere => ?_⟩
      · rw [hsend]; exact h.carries
      · rw [hsend]; exact h.present
      · exact absurd hhere (habsent r hr)
    · refine ⟨stream ++ [m], h.carries.send hnone m, ?_, fun r hr => (h.readers r hr).publish m,
        fun r hr hhere => (h.tuned r hr hhere).publish m⟩
      have hsend : (A.channel.send m).1.receivers = A.channel.receivers := by
        unfold Channel.send
        split <;> rfl
      exact hsend.trans h.present

/-- A way to read that keeps to `Channel.Reads`. -/
def Honest (A : Audience κ) (stream : List (Message κ))
    (f : Receiver → Option (Message κ) × Receiver) : Prop :=
  ∀ r, A.channel.Reads stream r (f r).2 (f r).1

theorem Sound.honest_look (h : A.Sound stream) : A.Honest stream A.channel.read? :=
  Channel.readFrom_reads h.carries _

theorem Sound.honest_wait (h : A.Sound stream) : A.Honest stream A.channel.receive? :=
  Channel.receive?_reads h.carries

theorem Sound.read (h : A.Sound stream) {f : Receiver → Option (Message κ) × Receiver}
    (hf : A.Honest stream f) (k : Nat) : (A.read k f).Sound stream := by
  unfold Audience.read
  split
  · next r hp =>
    obtain ⟨hk, hhere⟩ := present?_eq_some.mp hp
    obtain ⟨hlt, hget⟩ := List.getElem?_eq_some_iff.mp hk
    have hmem : r ∈ A.readers := List.mem_of_getElem? hk
    have ht := h.tuned r hmem hhere
    refine ⟨h.carries, ?_, ?_, ?_⟩
    · show A.channel.receivers = (A.readers.set k _).countP (·.here)
      have hpos : 0 < A.readers.countP (·.here) := List.countP_pos_iff.mpr ⟨r, hmem, hhere⟩
      have hsame : (r.reading (f r.receiver)).here = true := hhere
      rw [List.countP_set hlt, hget, if_pos hhere, if_pos hsame, h.present]
      omega
    · intro r' hr'
      rcases List.mem_or_eq_of_mem_set hr' with hr' | rfl
      · exact h.readers r' hr'
      · exact (h.readers r hmem).reading ht (hf _)
    · intro r' hr' hhere'
      rcases List.mem_or_eq_of_mem_set hr' with hr' | rfl
      · exact h.tuned r' hr' hhere'
      · exact ht.reading (hf _)
  · exact h

theorem Sound.play (h : A.Sound stream) (m : Move κ) : ∃ stream', (A.play m).Sound stream' := by
  cases m with
  | join filter => exact ⟨stream, h.join filter⟩
  | leave k => exact ⟨stream, h.leave k⟩
  | publish m => exact h.publish m
  | look k => exact ⟨stream, h.read h.honest_look k⟩
  | wait k => exact ⟨stream, h.read h.honest_wait k⟩
  | close => exact ⟨stream, ⟨h.carries.room, h.carries.sent, h.carries.kept⟩, h.present, h.readers,
      h.tuned⟩

theorem sound_after (n : Nat) (ms : List (Move κ)) :
    ∃ stream, ((ofCapacity n).after ms).Sound stream := by
  induction ms using List.reverseRecOn with
  | nil => exact ⟨[], sound_ofCapacity n⟩
  | append_singleton ms m ih =>
    obtain ⟨stream, h⟩ := ih
    rw [after_concat]
    exact h.play m

/-! ## What a move comes to for one reader -/

/-- A reader before and after a move. -/
structure Advances (A : Audience κ) (r r' : Reader κ) : Prop where
  since : r'.since = r.since
  wants : r'.wants = r.wants
  received : ∀ p ∈ r.received, p ∈ r'.received
  reached_le : r'.reached ≤ A.published.length
  /-- What it moves over it gets, unless the channel's room has been filled with newer events. -/
  passed : ∀ i m, r.reached ≤ i → i < r'.reached → A.published[i]? = some m →
    r.wants.passes m.event = true →
    (i, m) ∈ r'.received ∨ A.channel.capacity ≤ (A.published.drop (i + 1)).length

/-- Most moves leave a reader where it is. -/
theorem Sound.advances_same (h : A.Sound stream) (hk : A.readers[k]? = some r)
    (hs : r'.since = r.since) (hw : r'.wants = r.wants) (hr : r'.received = r.received)
    (hreached : r'.reached = r.reached) : ∃ r, A.readers[k]? = some r ∧ A.Advances r r' :=
  ⟨r, hk,
    { since := hs
      wants := hw
      received := fun _ hp => hr ▸ hp
      reached_le := hreached ▸ (h.readers r (List.mem_of_getElem? hk)).reached_le
      passed := fun _ _ hi hlt => by omega }⟩

theorem Sound.advances_read (h : A.Sound stream) {f : Receiver → Option (Message κ) × Receiver}
    (hf : A.Honest stream f) {j : Nat} (hr : (A.read j f).readers[k]? = some r') :
    ∃ r, A.readers[k]? = some r ∧ A.Advances r r' := by
  unfold Audience.read at hr
  split at hr
  · next r hp =>
    obtain ⟨hj, hhere⟩ := present?_eq_some.mp hp
    have hset : (A.readers.set j (r.reading (f r.receiver)))[k]? = some r' := hr
    by_cases hjk : j = k
    · subst hjk
      rw [List.getElem?_set_self (List.getElem?_eq_some_iff.mp hj).1] at hset
      obtain rfl := Option.some.inj hset
      have hmem : r ∈ A.readers := List.mem_of_getElem? hj
      have hsound := h.readers r hmem
      have htuned := h.tuned r hmem hhere
      exact ⟨r, hj,
        { since := rfl
          wants := rfl
          received := fun p hp => List.mem_append_left _ hp
          reached_le := (hsound.reading htuned (hf _)).reached_le
          passed := fun i m hi hlt hat hpass =>
            hsound.over_reading htuned (hf _) hi hlt hat hpass }⟩
    · rw [List.getElem?_set_ne hjk] at hset
      exact h.advances_same hset rfl rfl rfl rfl
  · exact h.advances_same hr rfl rfl rfl rfl

/-- After a move, a reader has just joined or was there before. -/
theorem Sound.advances (h : A.Sound stream) (m : Move κ) (hr : (A.play m).readers[k]? = some r') :
    r'.reached = r'.since ∨ ∃ r, A.readers[k]? = some r ∧ A.Advances r r' := by
  cases m with
  | join filter =>
    have hr : (A.join filter).readers[k]? = some r' := hr
    unfold Audience.join at hr
    split at hr
    · exact .inr (h.advances_same hr rfl rfl rfl rfl)
    · rcases Nat.lt_or_ge k A.readers.length with hlt | hge
      · rw [List.getElem?_append_left hlt] at hr
        exact .inr (h.advances_same hr rfl rfl rfl rfl)
      · rw [List.getElem?_append_right hge] at hr
        obtain rfl := List.mem_singleton.mp (List.mem_of_getElem? hr)
        refine .inl ?_
        show A.published.length + (A.channel.sent - A.channel.sent) = A.published.length
        omega
  | leave j =>
    refine .inr ?_
    have hr : (A.leave j).readers[k]? = some r' := hr
    unfold Audience.leave at hr
    split at hr
    · next r hp =>
      obtain ⟨hj, -⟩ := present?_eq_some.mp hp
      have hset : (A.readers.set j { r with here := false })[k]? = some r' := hr
      by_cases hjk : j = k
      · subst hjk
        rw [List.getElem?_set_self (List.getElem?_eq_some_iff.mp hj).1] at hset
        obtain rfl := Option.some.inj hset
        exact h.advances_same hj rfl rfl rfl rfl
      · rw [List.getElem?_set_ne hjk] at hset
        exact h.advances_same hset rfl rfl rfl rfl
    · exact h.advances_same hr rfl rfl rfl rfl
  | publish m =>
    have hreaders : (A.publish m).readers = A.readers := by
      unfold Audience.publish
      split <;> rfl
    have hr : (A.publish m).readers[k]? = some r' := hr
    rw [hreaders] at hr
    exact .inr (h.advances_same hr rfl rfl rfl rfl)
  | look j => exact .inr (h.advances_read h.honest_look hr)
  | wait j => exact .inr (h.advances_read h.honest_wait hr)
  | close => exact .inr (h.advances_same hr rfl rfl rfl rfl)

/-! ## What was published, and the room there is -/

/-- What has been published stays so, and the channel keeps its room. -/
structure Extends (A A' : Audience κ) : Prop where
  published : A.published <+: A'.published
  capacity : A'.channel.capacity = A.channel.capacity

theorem Extends.refl (A : Audience κ) : A.Extends A := ⟨List.prefix_refl _, rfl⟩

theorem extends_read (A : Audience κ) (k : Nat) (f : Receiver → Option (Message κ) × Receiver) :
    A.Extends (A.read k f) := by
  unfold read
  split <;> exact ⟨List.prefix_refl _, rfl⟩

theorem extends_play (A : Audience κ) (m : Move κ) : A.Extends (A.play m) := by
  cases m with
  | join filter =>
    show A.Extends (A.join filter)
    unfold join
    split <;> exact ⟨List.prefix_refl _, rfl⟩
  | leave k =>
    show A.Extends (A.leave k)
    unfold leave
    split <;> exact ⟨List.prefix_refl _, rfl⟩
  | publish m =>
    show A.Extends (A.publish m)
    unfold publish
    split
    · exact .refl A
    · refine ⟨List.prefix_append _ _, ?_⟩
      show (A.channel.send m).1.capacity = A.channel.capacity
      unfold Channel.send
      split <;> rfl
  | look k => exact A.extends_read k _
  | wait k => exact A.extends_read k _
  | close => exact ⟨List.prefix_refl _, rfl⟩

theorem capacity_after (n : Nat) (ms : List (Move κ)) :
    ((ofCapacity n).after ms).channel.capacity = Channel.roundUp n := by
  induction ms using List.reverseRecOn with
  | nil => rfl
  | append_singleton ms m ih => rw [after_concat, (extends_play _ m).capacity, ih]

/-! ## Nothing is missed but by an overrun -/

/-- Among these moves there is one by which a reader gets past an event that it has not got to before,
when as many newer events have been published as the channel has room for. -/
def Overrun (n : Nat) (ms : List (Move κ)) (k i : Nat) : Prop :=
  ∃ before m later, ms = before ++ m :: later ∧
    ∃ r r', ((ofCapacity n).after before).readers[k]? = some r ∧
      ((ofCapacity n).after (before ++ [m])).readers[k]? = some r' ∧
      r.reached ≤ i ∧ i < r'.reached ∧
      Channel.roundUp n ≤ (((ofCapacity n).after before).published.drop (i + 1)).length

theorem Overrun.concat {n i : Nat} {ms : List (Move κ)} (h : Overrun n ms k i) (m : Move κ) :
    Overrun n (ms ++ [m]) k i := by
  obtain ⟨before, m', later, rfl, hr⟩ := h
  exact ⟨before, m', later ++ [m], by simp, hr⟩

theorem received_or_overrun (n : Nat) (ms : List (Move κ)) :
    ∀ {k r}, ((ofCapacity n).after ms).readers[k]? = some r →
      ∀ i m, r.since ≤ i → i < r.reached → ((ofCapacity n).after ms).published[i]? = some m →
        r.wants.passes m.event = true → (i, m) ∈ r.received ∨ Overrun n ms k i := by
  induction ms using List.reverseRecOn with
  | nil => exact fun hr => by cases hr
  | append_singleton ms move ih =>
    intro k r' hr' i m hs hlt hat hpass
    obtain ⟨stream, h⟩ := sound_after n ms
    have hplay := hr'
    rw [after_concat] at hplay hat
    rcases h.advances move hplay with hnew | ⟨r, hr, hadv⟩
    · omega
    · rw [hadv.since] at hs
      rw [hadv.wants] at hpass
      -- no move gets a reader past an event that is published by that move
      have hbefore : ((ofCapacity n).after ms).published[i]? = some m := by
        obtain ⟨new, hnew⟩ := (extends_play ((ofCapacity n).after ms) move).published
        rwa [← hnew, List.getElem?_append_left (Nat.lt_of_lt_of_le hlt hadv.reached_le)] at hat
      by_cases hi : i < r.reached
      · rcases ih hr i m hs hi hbefore hpass with hgot | hover
        · exact .inl (hadv.received _ hgot)
        · exact .inr (hover.concat move)
      · have hle : r.reached ≤ i := Nat.le_of_not_lt hi
        rcases hadv.passed i m hle hlt hbefore hpass with hgot | hroom
        · exact .inl hgot
        · rw [capacity_after] at hroom
          exact .inr ⟨ms, move, [], rfl, r, r', hr, hr', hle, hlt, hroom⟩

/-! ## Reading gets on -/

theorem readers_read {f : Receiver → Option (Message κ) × Receiver} (hp : A.present? k = some r) :
    (A.read k f).readers[k]? = some (r.reading (f r.receiver)) := by
  unfold read
  rw [hp]
  show (A.readers.set k (r.reading (f r.receiver)))[k]? = _
  rw [List.getElem?_set_self (List.getElem?_eq_some_iff.mp (present?_eq_some.mp hp).1).1]

/-- A read that adds nothing to what a reader has got gave nothing. -/
theorem none_of_received {got : Option (Message κ) × Receiver}
    (h : (r.reading got).received = r.received) : got.1 = none := by
  rw [Reader.received_reading] at h
  have hnil := List.append_right_eq_self.mp h
  cases hm : got.1 with
  | none => rfl
  | some m => simp [hm] at hnil

/-- A reader that would have to wait has everything that was published behind it. -/
theorem Sound.wait_exhausts (h : A.Sound stream) (hp : A.present? k = some r)
    (hr : (A.play (.wait k)).readers[k]? = some r') (hsame : r'.received = r.received) :
    r'.reached = A.published.length := by
  obtain ⟨hk, hhere⟩ := present?_eq_some.mp hp
  have ht := h.tuned r (List.mem_of_getElem? hk) hhere
  obtain rfl := Option.some.inj ((readers_read hp).symm.trans hr)
  have hnone := none_of_received hsame
  exact (ht.reading (h.honest_wait r.receiver)).reached_eq
    (Channel.receive?_none h.carries ht.le_end hnone)

/-- A reader that reads without waiting and gets nothing has everything that was published behind it,
or it was told that it lags and goes on with the oldest event kept. -/
theorem Sound.look_exhausts (h : A.Sound stream) (hp : A.present? k = some r)
    (hr : (A.play (.look k)).readers[k]? = some r') (hsame : r'.received = r.received) :
    r'.reached = A.published.length ∨
      r.reached + A.channel.capacity < A.published.length ∧
        r'.reached + A.channel.capacity = A.published.length := by
  obtain ⟨hk, hhere⟩ := present?_eq_some.mp hp
  have hmem : r ∈ A.readers := List.mem_of_getElem? hk
  have ht := h.tuned r hmem hhere
  obtain rfl := Option.some.inj ((readers_read hp).symm.trans hr)
  have hnone := none_of_received hsame
  rcases Channel.read?_none h.carries ht.le_end hnone with hend | ⟨hlag, holdest⟩
  · exact .inl ((ht.reading (h.honest_look r.receiver)).reached_eq hend)
  · rw [h.carries.oldest_eq] at hlag holdest
    have ho := (h.readers r hmem).origin_le
    have hlen := ht.length_sub
    have hold : r.reached = r.since + (r.receiver.next - r.origin) := rfl
    have hnew : (r.reading (A.channel.read? r.receiver)).reached
        = r.since + ((A.channel.read? r.receiver).2.next - r.origin) := rfl
    rw [holdest] at hnew
    exact .inr ⟨by omega, by omega⟩

/-! ## How others read makes no difference -/

/-- Is a move anything but a read by somebody else? -/
def Move.concerns (k : Nat) : Move κ → Bool
  | .look j | .wait j => j == k
  | _ => true

/-- The two are the same but for what readers other than this one have read. -/
structure Alike (k : Nat) (A A' : Audience κ) : Prop where
  channel : A'.channel = A.channel
  published : A'.published = A.published
  here : A'.readers.map (·.here) = A.readers.map (·.here)
  reader : A'.readers[k]? = A.readers[k]?

namespace Alike

theorem refl (k : Nat) (A : Audience κ) : Alike k A A := ⟨rfl, rfl, rfl, rfl⟩

theorem symm (h : Alike k A A') : Alike k A' A :=
  ⟨h.channel.symm, h.published.symm, h.here.symm, h.reader.symm⟩

theorem trans {A'' : Audience κ} (h : Alike k A A') (h' : Alike k A' A'') : Alike k A A'' :=
  ⟨h'.channel.trans h.channel, h'.published.trans h.published, h'.here.trans h.here,
    h'.reader.trans h.reader⟩

theorem length_eq (h : Alike k A A') : A'.readers.length = A.readers.length := by
  simpa using congrArg List.length h.here

/-- The same are there. -/
theorem present (h : Alike k A A') {j : Nat} (hp : A.present? j = some r) :
    ∃ r', A'.present? j = some r' ∧ (j = k → r' = r) := by
  obtain ⟨hj, hhere⟩ := present?_eq_some.mp hp
  have hlt : j < A'.readers.length := h.length_eq ▸ (List.getElem?_eq_some_iff.mp hj).1
  have hflag := congrArg (·[j]?) h.here
  simp only [List.getElem?_map, hj, Option.map_some, hhere,
    List.getElem?_eq_getElem hlt, Option.some.injEq] at hflag
  refine ⟨A'.readers[j], present?_eq_some.mpr ⟨List.getElem?_eq_getElem hlt, hflag⟩, ?_⟩
  rintro rfl
  have hsame := h.reader
  rw [hj, List.getElem?_eq_getElem hlt] at hsame
  exact Option.some.inj hsame

/-- Readers of one number are changed on both sides. -/
theorem set (h : Alike k A A') {j : Nat} {c : Channel κ} {r₁ r₁' : Reader κ}
    (hhere : r₁'.here = r₁.here) (hk : j = k → r₁' = r₁) :
    Alike k { A with channel := c, readers := A.readers.set j r₁ }
      { A' with channel := c, readers := A'.readers.set j r₁' } where
  channel := rfl
  published := h.published
  here := by
    show (A'.readers.set j r₁').map (·.here) = (A.readers.set j r₁).map (·.here)
    rw [List.map_set, List.map_set, h.here, hhere]
  reader := by
    show (A'.readers.set j r₁')[k]? = (A.readers.set j r₁)[k]?
    by_cases hjk : j = k
    · rw [List.getElem?_set, List.getElem?_set, h.length_eq, hk hjk, if_pos hjk, if_pos hjk]
    · rw [List.getElem?_set_ne hjk, List.getElem?_set_ne hjk, h.reader]

theorem join (h : Alike k A A') (filter : EventFilter) :
    Alike k (A.join filter) (A'.join filter) := by
  unfold Audience.join
  rw [h.channel, h.published]
  split
  · exact h
  · refine ⟨rfl, rfl, ?_, ?_⟩
    · dsimp only
      rw [List.map_append, List.map_append, h.here]
    · dsimp only
      rw [List.getElem?_append, List.getElem?_append, h.length_eq, h.reader]

theorem leave (h : Alike k A A') (j : Nat) : Alike k (A.leave j) (A'.leave j) := by
  unfold Audience.leave
  cases hp : A.present? j with
  | some r =>
    obtain ⟨r', hp', hr⟩ := h.present hp
    simp only [hp', h.channel]
    exact h.set rfl fun hjk => by rw [hr hjk]
  | none =>
    cases hp' : A'.present? j with
    | some r' =>
      obtain ⟨r, hp'', -⟩ := h.symm.present hp'
      rw [hp] at hp''
      cases hp''
    | none => exact h

theorem publish (h : Alike k A A') (m : Message κ) : Alike k (A.publish m) (A'.publish m) := by
  unfold Audience.publish
  rw [h.channel, h.published]
  split
  · exact h
  · exact ⟨rfl, rfl, h.here, h.reader⟩

/-- The reader itself reads. -/
theorem read (h : Alike k A A') (f : Receiver → Option (Message κ) × Receiver) :
    Alike k (A.read k f) (A'.read k f) := by
  have hp : A'.present? k = A.present? k := by rw [present?, present?, h.reader]
  unfold Audience.read
  rw [hp]
  split
  · next r _ =>
    refine ⟨h.channel, h.published, ?_, ?_⟩
    · exact (h.set (c := A.channel) rfl fun _ => rfl).here
    · exact (h.set (c := A.channel) rfl fun _ => rfl).reader
  · exact h

/-- Somebody else reads. -/
theorem aside {j : Nat} (hj : j ≠ k) (A : Audience κ)
    (f : Receiver → Option (Message κ) × Receiver) : Alike k (A.read j f) A := by
  unfold Audience.read
  split
  · next r hp =>
    obtain ⟨hat, hhere⟩ := present?_eq_some.mp hp
    refine ⟨rfl, rfl, ?_, ?_⟩
    · obtain ⟨hlt, hget⟩ := List.getElem?_eq_some_iff.mp hat
      have hflag : (r.reading (f r.receiver)).here = A.readers[j].here := by rw [hget]; rfl
      rw [← List.set_getElem_self hlt, List.map_set, List.map_set, List.set_getElem_self, hflag]
    · exact (List.getElem?_set_ne hj).symm
  · exact .refl k A

theorem play (h : Alike k A A') {m : Move κ} (hm : m.concerns k = true) :
    Alike k (A.play m) (A'.play m) := by
  cases m with
  | join filter => exact h.join filter
  | leave j => exact h.leave j
  | publish m => exact h.publish m
  | look j =>
    obtain rfl : j = k := by simpa [Move.concerns] using hm
    show Alike j (A.read j A.channel.read?) (A'.read j A'.channel.read?)
    rw [h.channel]
    exact h.read _
  | wait j =>
    obtain rfl : j = k := by simpa [Move.concerns] using hm
    show Alike j (A.read j A.channel.receive?) (A'.read j A'.channel.receive?)
    rw [h.channel]
    exact h.read _
  | close => exact ⟨congrArg Channel.close h.channel, h.published, h.here, h.reader⟩

theorem skip (h : Alike k A A') {m : Move κ} (hm : m.concerns k = false) :
    Alike k (A.play m) A' := by
  cases m with
  | look j => exact (aside (by simpa [Move.concerns] using hm) A _).trans h
  | wait j => exact (aside (by simpa [Move.concerns] using hm) A _).trans h
  | _ => cases hm

theorem after : ∀ (ms : List (Move κ)) {A A' : Audience κ}, Alike k A A' →
    Alike k (A.after ms) (A'.after (ms.filter (·.concerns k))) := by
  intro ms
  induction ms with
  | nil => exact fun h => h
  | cons m rest ih =>
    intro A A' h
    cases hm : m.concerns k with
    | false =>
      rw [List.filter_cons_of_neg (by rw [hm]; exact Bool.false_ne_true)]
      exact ih (h.skip hm)
    | true =>
      rw [List.filter_cons_of_pos hm]
      exact ih (h.play hm)

end Alike

/-- **Of histories that differ in how others read, a reader has got the same.** -/
theorem reader_eq {ms ms' : List (Move κ)} (A : Audience κ)
    (h : ms.filter (·.concerns k) = ms'.filter (·.concerns k)) :
    (A.after ms').readers[k]? = (A.after ms).readers[k]? := by
  have h₁ := Alike.after ms (.refl k A)
  have h₂ := Alike.after ms' (.refl k A)
  rw [h] at h₁
  exact (h₁.trans h₂.symm).reader

/-! ## All together -/

/-- **A stream read by many.** A channel has room for the least power of two that is not less than what
was asked for. What a reader has got are events published since it joined that pass its filter, in the
order in which they were published and each once. An event that passes and is behind it, it has got,
unless as many newer ones as there is room for had been published when it came to it. A read that gives
nothing leaves nothing behind: all that was published is behind the reader then, unless it lagged and
reads without waiting, which takes it to the oldest event kept. And how others read makes no difference
to what it gets. -/
theorem readers_follow_stream (n : Nat) (ms : List (Move κ)) :
    let A := (ofCapacity n).after ms
    let room := Channel.roundUp n
    ((∃ e, room = Nat.pow 2 e) ∧ n ≤ room ∧ ∀ e, n ≤ Nat.pow 2 e → room ≤ Nat.pow 2 e) ∧
    (∀ k r, A.readers[k]? = some r →
      (r.received.map (·.1)).Pairwise (· < ·) ∧
      (∀ p ∈ r.received, r.since ≤ p.1 ∧ A.published[p.1]? = some p.2 ∧
        r.wants.passes p.2.event = true) ∧
      (∀ i m, r.since ≤ i → i < r.reached → A.published[i]? = some m →
        r.wants.passes m.event = true → (i, m) ∈ r.received ∨ Overrun n ms k i)) ∧
    (∀ k r r', A.present? k = some r → r'.received = r.received →
      ((A.play (.wait k)).readers[k]? = some r' → r'.reached = A.published.length) ∧
      ((A.play (.look k)).readers[k]? = some r' → r'.reached = A.published.length ∨
        r.reached + room < A.published.length ∧ r'.reached + room = A.published.length)) ∧
    ∀ k ms', ms.filter (·.concerns k) = ms'.filter (·.concerns k) →
      ((ofCapacity n).after ms').readers[k]? = A.readers[k]? := by
  intro A room
  obtain ⟨stream, h⟩ := sound_after n ms
  have hroom : A.channel.capacity = room := capacity_after n ms
  refine ⟨Channel.roundUp_least n, fun k r hr => ?_, fun k r r' hp hsame => ⟨fun hr' => ?_,
    fun hr' => ?_⟩, fun k ms' hms => reader_eq _ hms⟩
  · have hsound := h.readers r (List.mem_of_getElem? hr)
    refine ⟨hsound.ordered, fun p hp => ?_, received_or_overrun n ms hr⟩
    obtain ⟨hs, -, hat, hpass⟩ := hsound.found p hp
    exact ⟨hs, hat, hpass⟩
  · exact h.wait_exhausts hp hr' hsame
  · rw [← hroom]
    exact h.look_exhausts hp hr' hsame

/-- A channel with room for two: who joined at first and slept has missed the first two of four events,
and is told so once. -/
example :
    let A := (ofCapacity 2 : Audience Unit).after
      ([.join .all] ++ List.replicate 4 (.publish default) ++ List.replicate 3 (.look 0))
    (A.readers[0]?).map (·.received.map (·.1)) = some [2, 3] := rfl

end Audience

end ReactiveRules
