import ReactiveRules.Proofs.Broadcast.Audience

/-!
# `Proofs/Broadcast/Agreement.lean` — the two ways to read, side by side

A receiver that looks and one that is ready to wait take the same way through the channel, except where they
find that they lag: the one goes on from the oldest event kept, the other stops there with nothing. **So they
get the same event, or both none, unless the receiver lags; then looking gives nothing, and looking once more
what waiting would have given** (`Audience.reads_agree_unless_lagging`). A reader lags when more newer events
have been published than there is room for, and it misses something by looking if one of those kept passes
its filter.
-/

set_option autoImplicit false

namespace ReactiveRules

namespace Channel

variable {κ : Type} {c : Channel κ} {stream : List (Message κ)} {r : Receiver}

/-! ## One receiver -/

/-- More steps than there are events ahead make no difference. -/
theorem readFrom_of_enough (h : c.Carries stream) : ∀ (fuel : Nat) (r : Receiver),
    c.oldest ≤ r.next → stream.length - r.next < fuel →
    c.readFrom (fuel + 1) r = c.readFrom fuel r := by
  intro fuel
  induction fuel with
  | zero => intro r _ hfuel; omega
  | succ fuel ih =>
    intro r hle hfuel
    rcases h.glance_cases r with ⟨hlag, -⟩ | ⟨-, m, hm, hg⟩ | ⟨-, -, hg⟩
    · omega
    · have hlt : r.next < stream.length := (List.getElem?_eq_some_iff.mp hm).1
      have hrest : c.readFrom (fuel + 1) { r with next := r.next + 1 }
          = c.readFrom fuel { r with next := r.next + 1 } := by
        refine ih _ (Nat.le_succ_of_le hle) ?_
        show stream.length - (r.next + 1) < fuel
        omega
      rw [readFrom, hg, readFrom, hg]
      dsimp only
      rw [hrest]
    · rw [readFrom, hg, readFrom, hg]
      cases c.closed <;> rfl

theorem receive?_of_oldest_le (h : c.Carries stream) (hle : c.oldest ≤ r.next) :
    c.receive? r = c.read? r :=
  receiveFrom_of_oldest_le h _ r hle

/-- Who lags and looks gets nothing, and is at the oldest event kept. -/
theorem read?_of_lag (h : c.Carries stream) (hlag : r.next < c.oldest) :
    c.read? r = (none, { r with next := c.oldest }) := by
  rcases h.glance_cases r with ⟨-, hg⟩ | ⟨hle, -⟩ | ⟨hle, -⟩
  · rw [read?, patience, readFrom, hg]
  · omega
  · omega

/-- Who lags and is ready to wait gets what there is from the oldest event kept on. -/
theorem receive?_of_lag (h : c.Carries stream) (hlag : r.next < c.oldest) :
    c.receive? r = c.read? { r with next := c.oldest } := by
  have hahead : stream.length - c.oldest < c.kept.length + 1 := by
    rw [h.oldest_eq, h.kept, List.length_drop]
    omega
  have hread : c.receive? r = c.readFrom (c.kept.length + 1) { r with next := c.oldest } := by
    rw [receive?, receive, patience, receiveFrom_of_lag h _ hlag]
    exact receiveFrom_of_oldest_le h _ _ (Nat.le_refl _)
  rw [hread, read?, patience]
  exact (readFrom_of_enough h _ _ (Nat.le_refl _) hahead).symm

/-- An event that a receiver gets by looking it gets as well if it is ready to wait. -/
theorem receive?_of_read? (h : c.Carries stream) {m : Message κ} (hm : (c.read? r).1 = some m) :
    c.receive? r = c.read? r := by
  by_cases hlag : r.next < c.oldest
  · rw [read?_of_lag h hlag] at hm
    cases hm
  · exact receive?_of_oldest_le h (Nat.le_of_not_lt hlag)

/-- A receiver finds something from the oldest event kept on if and only if one of those passes. -/
theorem read?_oldest_isSome_iff (h : c.Carries stream) (r : Receiver) :
    (c.read? { r with next := c.oldest }).1.isSome = true ↔
      ∃ i m, c.oldest ≤ i ∧ stream[i]? = some m ∧ r.filter.passes m.event = true := by
  have hread : c.Reads stream { r with next := c.oldest } _ _ :=
    readFrom_reads h c.patience { r with next := c.oldest }
  constructor
  · intro hsome
    obtain ⟨m, hm⟩ := Option.isSome_iff_exists.mp hsome
    obtain ⟨hlt, hat, hpass⟩ := hread.found m hm
    exact ⟨_, m, Nat.le_sub_one_of_lt hlt, hat, hpass⟩
  · rintro ⟨i, m, hi, hat, hpass⟩
    by_contra hnone
    have hnone : (c.read? { r with next := c.oldest }).1 = none := by simpa using hnone
    have holdest : c.oldest ≤ stream.length := by
      rw [h.oldest_eq]
      omega
    have hlt : i < stream.length := (List.getElem?_eq_some_iff.mp hat).1
    -- it would have come to the end of the stream, past the event
    have hend : (c.read? { r with next := c.oldest }).2.next = stream.length := by
      rcases read?_none h holdest hnone with hend | ⟨hlag, -⟩
      · exact hend
      · exact absurd hlag (Nat.lt_irrefl _)
    rcases hread.skipped i m hi (hend ▸ hlt) hat hpass with ⟨hgot, -⟩ | hlost
    · rw [show (c.readFrom c.patience { r with next := c.oldest }).1 = none from hnone] at hgot
      cases hgot
    · rw [h.oldest_eq] at hi
      omega

end Channel

theorem Received.eq_message_iff {κ : Type} {x : Received κ} {m : Message κ} :
    x = .message m ↔ x.message? = some m := by
  cases x <;> simp [Received.message?]

namespace Audience

variable {κ : Type} {A : Audience κ} {stream : List (Message κ)} {k : Nat} {r : Reader κ}

/-! ## Readers in an audience -/

/-- A reader lags when more newer events have been published than there is room for. -/
theorem Sound.lags_iff (h : A.Sound stream) (hp : A.present? k = some r) :
    r.receiver.next < A.channel.oldest ↔
      r.reached + A.channel.capacity < A.published.length := by
  obtain ⟨hk, hhere⟩ := present?_eq_some.mp hp
  have hmem : r ∈ A.readers := List.mem_of_getElem? hk
  have ht := h.tuned r hmem hhere
  have ho := (h.readers r hmem).origin_le
  have hlen := ht.length_sub
  have hsince := ht.since_le
  have horigin := ht.origin_le
  have hreached : r.reached = r.since + (r.receiver.next - r.origin) := rfl
  rw [h.carries.oldest_eq]
  omega

/-- To a reader that lags, the events kept are the last that were published. -/
theorem Sound.kept_passes_iff (h : A.Sound stream) (hp : A.present? k = some r)
    (hlag : r.receiver.next < A.channel.oldest) :
    (∃ i m, A.channel.oldest ≤ i ∧ stream[i]? = some m ∧
        r.receiver.filter.passes m.event = true) ↔
      ∃ i m, A.published.length - A.channel.capacity ≤ i ∧ A.published[i]? = some m ∧
        r.wants.passes m.event = true := by
  obtain ⟨hk, hhere⟩ := present?_eq_some.mp hp
  have hmem : r ∈ A.readers := List.mem_of_getElem? hk
  have ht := h.tuned r hmem hhere
  have ho := (h.readers r hmem).origin_le
  have hlen := ht.length_sub
  have hsince := ht.since_le
  have horigin := ht.origin_le
  rw [(h.readers r hmem).filter]
  rw [h.carries.oldest_eq] at hlag ⊢
  -- the reader joined before the oldest event kept, so places and numbers differ by a constant
  constructor
  · rintro ⟨i, m, hi, hat, hpass⟩
    obtain ⟨j, rfl⟩ : ∃ j, i = r.origin + j := ⟨i - r.origin, by omega⟩
    exact ⟨r.since + j, m, by omega, (ht.getElem? j).symm.trans hat, hpass⟩
  · rintro ⟨i, m, hi, hat, hpass⟩
    obtain ⟨j, rfl⟩ : ∃ j, i = r.since + j := ⟨i - r.since, by omega⟩
    exact ⟨r.origin + j, m, by omega, (ht.getElem? j).trans hat, hpass⟩

/-- **Looking and waiting agree unless the reader lags.** An event that a reader gets by looking is the one
that it would get if it were ready to wait, and leaves it at the same place. As long as no more newer events
have been published than there is room for, the two come to the same in every respect. After that looking
gives nothing once, and looking again gives what waiting would have given. So looking gives nothing where
waiting gives an event at once if and only if the reader lags and an event that is kept passes its filter. -/
theorem reads_agree_unless_lagging (n : Nat) (ms : List (Move κ)) {k : Nat} {r : Reader κ}
    (hp : ((ofCapacity n).after ms).present? k = some r) :
    let A := (ofCapacity n).after ms
    let room := Channel.roundUp n
    let look := A.channel.read? r.receiver
    let wait := A.channel.receive r.receiver
    (∀ m, look.1 = some m → wait = (.message m, look.2)) ∧
    (A.published.length ≤ r.reached + room → (wait.1.message?, wait.2) = look) ∧
    (r.reached + room < A.published.length →
      look.1 = none ∧ A.channel.read? look.2 = (wait.1.message?, wait.2)) ∧
    ((look.1 = none ∧ ∃ m, wait.1 = .message m) ↔ r.reached + room < A.published.length ∧
      ∃ i m, A.published.length - room ≤ i ∧ A.published[i]? = some m ∧
        r.wants.passes m.event = true) := by
  intro A room look wait
  obtain ⟨stream, h⟩ := sound_after n ms
  have hroom : A.channel.capacity = room := capacity_after n ms
  have hlags := h.lags_iff hp
  rw [hroom] at hlags
  have hnow : ¬ r.reached + room < A.published.length → A.channel.receive? r.receiver = look :=
    fun hle => Channel.receive?_of_oldest_le h.carries
      (Nat.le_of_not_lt fun hlag => hle (hlags.mp hlag))
  refine ⟨fun m hm => ?_, fun hle => hnow (Nat.not_lt.mpr hle), fun hlt => ?_, ?_⟩
  · have hsame : A.channel.receive? r.receiver = look := Channel.receive?_of_read? h.carries hm
    have hevent : wait.1 = .message m :=
      Received.eq_message_iff.mpr ((congrArg Prod.fst hsame).trans hm)
    have hplace : wait.2 = look.2 := congrArg Prod.snd hsame
    exact Prod.ext hevent hplace
  · have hlag := hlags.mpr hlt
    have hlook : look = (none, { r.receiver with next := A.channel.oldest }) :=
      Channel.read?_of_lag h.carries hlag
    rw [hlook]
    exact ⟨rfl, (Channel.receive?_of_lag h.carries hlag).symm⟩
  · by_cases hlt : r.reached + room < A.published.length
    · have hlag := hlags.mpr hlt
      have hlook : look.1 = none := congrArg Prod.fst (Channel.read?_of_lag h.carries hlag)
      have hwait : wait.1.message?
          = (A.channel.read? { r.receiver with next := A.channel.oldest }).1 :=
        congrArg Prod.fst (Channel.receive?_of_lag h.carries hlag)
      have hsome : (∃ m, wait.1 = .message m) ↔ wait.1.message?.isSome = true := by
        rw [Option.isSome_iff_exists]
        exact exists_congr fun m => Received.eq_message_iff
      rw [and_iff_right hlook, and_iff_right hlt, hsome, hwait,
        Channel.read?_oldest_isSome_iff h.carries, h.kept_passes_iff hp hlag, hroom]
    · refine ⟨fun ⟨hnone, m, hm⟩ => ?_, fun hlag => absurd hlag.1 hlt⟩
      have hgot : look.1 = some m :=
        (congrArg Prod.fst (hnow hlt)).symm.trans (Received.eq_message_iff.mp hm)
      rw [hnone] at hgot
      cases hgot

/-- Somebody who reads only failures joins, and three events come before it reads: two failures and then
something else. There is room for two. -/
def belated : List (Move Unit) :=
  let failure : Message Unit := ⟨⟨"r1", "L", "n", .failed "e", 0⟩, "s", none⟩
  [.join .failures, .publish failure, .publish failure, .publish default]

/-- It lags, and looking again gives it the second failure. -/
theorem belated_looks_again : ∃ r, ((ofCapacity 2).after belated).present? 0 = some r ∧
    (((ofCapacity 2).after belated).channel.read? r.receiver).1 = none ∧
    (((ofCapacity 2).after belated).channel.read?
      (((ofCapacity 2).after belated).channel.read? r.receiver).2).1.isSome = true := by
  refine ⟨_, rfl, ?_⟩
  obtain ⟨-, -, hlag, -⟩ := reads_agree_unless_lagging 2 belated (k := 0) rfl
  obtain ⟨hnone, hagain⟩ := hlag (by decide)
  exact ⟨hnone, by rw [hagain]; rfl⟩

/-- **Looking gives nothing where waiting gives an event at once.** -/
theorem belated_misses : ∃ r, ((ofCapacity 2).after belated).present? 0 = some r ∧
    (((ofCapacity 2).after belated).channel.read? r.receiver).1 = none ∧
    ∃ m, (((ofCapacity 2).after belated).channel.receive r.receiver).1 = .message m :=
  ⟨_, rfl, rfl, _, rfl⟩

end Audience

end ReactiveRules
