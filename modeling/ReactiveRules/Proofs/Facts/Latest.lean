import Mathlib.Data.List.Basic
import ReactiveRules.Proofs.Facts.Expiry

/-!
# `Proofs/Facts/Latest.lean` — the latest record decides

A `Chronicle` is what a memory was told, with nothing replaced and nothing forgotten. **Of every name the
memory gives the value of its latest record if that is settled and not expired, and nothing otherwise**
(`Moment.latest_counts`): an older record never shows through, and no sweep makes a difference.

What carries it is `Moment.Keeps`: what is in the memory is the latest of its name, and the latest of a
name is in the memory unless it has expired. Sweeping keeps the second part because the clock does not
go back (`FactRecord.expired_later`).
-/

set_option autoImplicit false

namespace ReactiveRules

/-! ## The ages at which a record counts -/

namespace Validity

variable {v : Validity} {age : Nat}

theorem expiredAt_iff : v.expiredAt age = true ↔ ∃ limit, v.lifetime = some limit ∧ limit ≤ age := by
  unfold expiredAt
  cases v.lifetime with
  | none => simp
  | some limit => simp

theorem validAt_iff : v.validAt age = true ↔
    v.settle ≤ age ∧ ∀ limit, v.lifetime = some limit → age < limit := by
  unfold validAt expiredAt
  cases v.lifetime with
  | none => simp
  | some limit => simp [and_comm]

/-- A delay below zero is none, and a limit below zero is never reached. -/
theorem validAt_ofSettings (delay limit : Int) : (ofSettings delay limit).validAt age = true ↔
    delay ≤ age ∧ (0 ≤ limit → (age : Int) < limit) := by
  rw [validAt_iff]
  unfold ofSettings
  by_cases hl : 0 ≤ limit
  · simp only [if_pos hl, Option.some.injEq, forall_eq']
    omega
  · simp only [if_neg hl]
    refine ⟨fun ⟨hd, _⟩ => ⟨by omega, fun h => absurd h hl⟩, fun ⟨hd, _⟩ => ⟨by omega, ?_⟩⟩
    intro _ h
    cases h

end Validity

namespace FactRecord

variable {r : FactRecord} {now : Nat}

/-- Old enough, and not yet too old. -/
def Counts (r : FactRecord) (now : Nat) : Prop :=
  r.validity.settle ≤ now - r.created ∧
    ∀ lifetime, r.validity.lifetime = some lifetime → now - r.created < lifetime

/-- Too old, from now on. -/
def Expires (r : FactRecord) (now : Nat) : Prop :=
  ∃ lifetime, r.validity.lifetime = some lifetime ∧ lifetime ≤ now - r.created

theorem valid_iff : r.valid now = true ↔ r.Counts now := Validity.validAt_iff

theorem expired_iff : r.expired now = true ↔ r.Expires now := Validity.expiredAt_iff

instance : Decidable (r.Expires now) := decidable_of_iff _ expired_iff

theorem Counts.not_expired (h : r.Counts now) : r.expired now = false :=
  FactRecord.not_expired (valid_iff.mpr h)

end FactRecord

namespace FactMemory

/-! ## Chronicles -/

/-- What a memory was told since it was last cleared, in order. -/
structure Chronicle where
  now : Nat := 0
  written : List FactRecord := []

namespace Chronicle

def play (c : Chronicle) : Move → Chronicle
  | .record source fact validity =>
    { c with written := c.written ++ [⟨fact, source, c.now, validity⟩] }
  | .clear => { c with written := [] }
  | .sweep => c
  | .pass ms => { c with now := c.now + ms }

def after (c : Chronicle) (ms : List Move) : Chronicle := ms.foldl play c

/-- The latest record of a name. -/
def latest? (c : Chronicle) (name : String) : Option FactRecord :=
  c.written.reverse.find? (·.fact.name == name)

variable {c : Chronicle} {name : String} {r : FactRecord}

theorem latest?_record (c : Chronicle) (source : String) (fact : Fact) (validity : Validity)
    (name : String) : (c.play (.record source fact validity)).latest? name
      = if fact.name = name then some ⟨fact, source, c.now, validity⟩ else c.latest? name := by
  unfold latest? play
  simp only [List.reverse_append, List.reverse_cons, List.reverse_nil, List.nil_append,
    List.singleton_append, List.find?_cons]
  by_cases h : fact.name = name
  · rw [if_pos h, beq_iff_eq.mpr h]
  · rw [if_neg h, beq_eq_false_iff_ne.mpr h]

theorem latest?_name (h : c.latest? name = some r) : r.fact.name = name := by
  have hname := List.find?_some h
  exact beq_iff_eq.mp hname

/-- Nothing was written after now. -/
def Past (c : Chronicle) : Prop := ∀ r ∈ c.written, r.created ≤ c.now

theorem Past.play (h : c.Past) (m : Move) : (c.play m).Past := by
  cases m with
  | record source fact validity =>
    intro r hr
    rcases List.mem_append.mp hr with hr | hr
    · exact h r hr
    · rw [List.mem_singleton.mp hr]
      exact Nat.le_refl _
  | clear => exact fun r hr => by cases hr
  | sweep => exact h
  | pass ms => exact fun r hr => Nat.le_trans (h r hr) (Nat.le_add_right _ _)

theorem Past.after (ms : List Move) (h : c.Past) : (c.after ms).Past := by
  induction ms generalizing c with
  | nil => exact h
  | cons m rest ih => exact ih (h.play m)

end Chronicle

/-- Does a move record a fact of that name? -/
def Move.Renews (name : String) : Move → Prop
  | .record _ fact _ => fact.name = name
  | _ => False

/-- Without a new record the latest of a name is what it was, or the memory has been cleared. -/
theorem Chronicle.latest?_play {c : Chronicle} {name : String} {r : FactRecord} {m : Move}
    (hm : ¬ m.Renews name) (h : (c.play m).latest? name = some r) : c.latest? name = some r := by
  cases m with
  | record source fact validity =>
    rw [latest?_record] at h
    split at h
    · next hname => exact absurd hname hm
    · exact h
  | clear => cases h
  | sweep => exact h
  | pass ms => exact h

theorem Chronicle.now_play (c : Chronicle) (m : Move) : c.now ≤ (c.play m).now := by
  cases m with
  | pass ms => exact Nat.le_add_right _ _
  | _ => exact Nat.le_refl _

/-! ## The memory against its chronicle -/

/-- The records have different names. -/
def Distinct (m : FactMemory) : Prop :=
  m.records.Pairwise fun a b => a.fact.name ≠ b.fact.name

theorem Distinct.nodup_validFacts {m : FactMemory} (h : m.Distinct) (now : Nat) :
    ((m.validFacts now).map (·.name)).Nodup := by
  unfold validFacts
  rw [List.map_map, List.Nodup, List.pairwise_map]
  exact h.filter _

theorem get?_name {m : FactMemory} {name : String} {r : FactRecord} (h : m.get? name = some r) :
    r.fact.name = name := by
  have hname := List.find?_some h
  exact beq_iff_eq.mp hname

namespace Moment

variable {s : Moment} {c : Chronicle}

/-- What is kept, and that it is the latest. -/
structure Keeps (s : Moment) (c : Chronicle) : Prop where
  now : s.now = c.now
  distinct : s.memory.Distinct
  latest : ∀ r ∈ s.memory.records, c.latest? r.fact.name = some r
  live : ∀ name r, c.latest? name = some r → r.expired s.now = false → r ∈ s.memory.records

theorem keeps_empty : Keeps {} {} where
  now := rfl
  distinct := List.Pairwise.nil
  latest := fun _ hr => by cases hr
  live := fun _ _ hr => by cases hr

theorem Keeps.record (h : s.Keeps c) (source : String) (fact : Fact) (validity : Validity) :
    (s.play (.record source fact validity)).Keeps (c.play (.record source fact validity)) := by
  have hmem : ∀ r, r ∈ (s.play (.record source fact validity)).memory.records ↔
      (r ∈ s.memory.records ∧ fact.name ≠ r.fact.name) ∨ r = ⟨fact, source, c.now, validity⟩ := by
    intro r
    show r ∈ s.memory.records.filter (fun r => r.fact.name != fact.name)
      ++ [⟨fact, source, s.now, validity⟩] ↔ _
    rw [List.mem_append, List.mem_filter, List.mem_singleton, bne_iff_ne, ne_comm, h.now]
  refine ⟨h.now, ?_, fun r hr => ?_, fun name r hr hlive => ?_⟩
  · refine List.pairwise_append.mpr ⟨h.distinct.filter _, List.pairwise_singleton _ _, ?_⟩
    intro a ha b hb
    rw [List.mem_singleton.mp hb]
    exact bne_iff_ne.mp (List.mem_filter.mp ha).2
  · rw [Chronicle.latest?_record]
    rcases (hmem r).mp hr with ⟨hr, hne⟩ | rfl
    · rw [if_neg hne]
      exact h.latest r hr
    · rw [if_pos rfl]
  · rw [Chronicle.latest?_record] at hr
    rw [hmem]
    split at hr
    · exact .inr (Option.some.inj hr).symm
    · next hne =>
      refine .inl ⟨h.live name r hr hlive, ?_⟩
      rw [Chronicle.latest?_name hr]
      exact hne

theorem Keeps.sweep (h : s.Keeps c) : (s.play .sweep).Keeps c where
  now := h.now
  distinct := h.distinct.filter _
  latest := fun r hr => h.latest r ((List.mem_filter.mp hr).1)
  live := fun name r hr hlive => by
    have hlive : r.expired s.now = false := hlive
    exact List.mem_filter.mpr ⟨h.live name r hr hlive, by rw [hlive]; rfl⟩

theorem Keeps.pass (h : s.Keeps c) (ms : Nat) : (s.play (.pass ms)).Keeps (c.play (.pass ms)) where
  now := congrArg (· + ms) h.now
  distinct := h.distinct
  latest := h.latest
  live := fun name r hr hlive => by
    have hlive : r.expired (s.now + ms) = false := hlive
    refine h.live name r hr ?_
    cases hx : r.expired s.now with
    | false => rfl
    | true =>
      rw [FactRecord.expired_later hx (Nat.le_add_right s.now ms)] at hlive
      cases hlive

theorem Keeps.clear (h : s.Keeps c) : (s.play .clear).Keeps (c.play .clear) where
  now := h.now
  distinct := List.Pairwise.nil
  latest := fun _ hr => by cases hr
  live := fun _ _ hr => by cases hr

theorem Keeps.play (h : s.Keeps c) (m : Move) : (s.play m).Keeps (c.play m) := by
  cases m with
  | record source fact validity => exact h.record source fact validity
  | clear => exact h.clear
  | sweep => exact h.sweep
  | pass ms => exact h.pass ms

/-- A memory and its chronicle, after the same moves. -/
theorem Keeps.after (ms : List Move) (h : s.Keeps c) : (s.after ms).Keeps (c.after ms) := by
  induction ms generalizing s c with
  | nil => exact h
  | cons m rest ih => exact ih (h.play m)

/-! ## What counts -/

theorem Keeps.mem_validFacts (h : s.Keeps c) (f : Fact) : f ∈ s.validFacts ↔
    ∃ r, c.latest? f.name = some r ∧ r.fact = f ∧ r.Counts s.now := by
  unfold validFacts FactMemory.validFacts
  simp only [List.mem_map, List.mem_filter, FactRecord.valid_iff]
  constructor
  · rintro ⟨r, ⟨hr, hcounts⟩, rfl⟩
    exact ⟨r, h.latest r hr, rfl, hcounts⟩
  · rintro ⟨r, hr, rfl, hcounts⟩
    exact ⟨r, ⟨h.live _ r hr hcounts.not_expired, hcounts⟩, rfl⟩

theorem Keeps.validValue? (h : s.Keeps c) (name : String) (v : Json) :
    s.memory.validValue? s.now name = some v ↔
      ∃ r, c.latest? name = some r ∧ r.fact.value = v ∧ r.Counts s.now := by
  unfold FactMemory.validValue?
  simp only [Option.map_eq_some_iff, Option.filter_eq_some_iff, FactRecord.valid_iff]
  constructor
  · rintro ⟨r, ⟨hr, hcounts⟩, hv⟩
    refine ⟨r, ?_, hv, hcounts⟩
    rw [← get?_name hr]
    exact h.latest r (List.mem_of_find?_eq_some hr)
  · rintro ⟨r, hr, hv, hcounts⟩
    have hmem := h.live name r hr hcounts.not_expired
    obtain ⟨r', hr'⟩ : ∃ r', s.memory.get? name = some r' := Option.isSome_iff_exists.mp
      (List.find?_isSome.mpr ⟨r, hmem, beq_iff_eq.mpr (Chronicle.latest?_name hr)⟩)
    -- both are the latest of the name
    have hlatest := h.latest r' (List.mem_of_find?_eq_some hr')
    rw [get?_name hr', hr] at hlatest
    obtain rfl := Option.some.inj hlatest
    exact ⟨r, ⟨hr', hcounts⟩, hv⟩

theorem Keeps.nodup_validFacts (h : s.Keeps c) : (s.validFacts.map (·.name)).Nodup :=
  h.distinct.nodup_validFacts s.now

/-- What has expired stays so: until a fact of its name is recorded, none counts. -/
theorem Keeps.expired_after {name : String} (h : s.Keeps c)
    (hr : ∀ r', c.latest? name = some r' → r'.expired s.now = true) (ms : List Move)
    (hms : ∀ m ∈ ms, ¬ m.Renews name) :
    ∀ r', (c.after ms).latest? name = some r' → r'.expired (s.after ms).now = true := by
  induction ms generalizing s c with
  | nil => exact hr
  | cons m rest ih =>
    refine ih (h.play m) (fun r' hr' => ?_) fun m' hm' => hms m' (List.mem_cons_of_mem _ hm')
    have hold := Chronicle.latest?_play (hms m List.mem_cons_self) hr'
    refine FactRecord.expired_later (hr r' hold) ?_
    rw [h.now, (h.play m).now]
    exact c.now_play m

theorem Keeps.never_counts (h : s.Keeps c) {name : String}
    (hr : ∀ r, c.latest? name = some r → r.expired s.now = true) :
    s.memory.validValue? s.now name = none ∧ ∀ f ∈ s.validFacts, f.name ≠ name := by
  have hno : ∀ r, c.latest? name = some r → ¬ r.Counts s.now := fun r hlatest hcounts =>
    Bool.false_ne_true (hcounts.not_expired.symm.trans (hr r hlatest))
  constructor
  · refine Option.eq_none_iff_forall_ne_some.mpr fun v hv => ?_
    obtain ⟨r, hlatest, -, hcounts⟩ := (h.validValue? name v).mp hv
    exact hno r hlatest hcounts
  · intro f hf hname
    obtain ⟨r, hlatest, -, hcounts⟩ := (h.mem_validFacts f).mp hf
    exact hno r (hname ▸ hlatest) hcounts

/-! ### Sweeping -/

theorem records_sweep (s : Moment) : (s.play .sweep).memory.records
    = s.memory.records.filter fun r => ¬ r.Expires s.now := by
  show s.memory.records.filter (fun r => !r.expired s.now) = _
  refine List.filter_congr fun r _ => ?_
  rw [Bool.eq_iff_iff, Bool.not_eq_true', decide_eq_true_iff, ← FactRecord.expired_iff,
    Bool.not_eq_true]

theorem sweepCount_eq (s : Moment) : s.memory.sweepCount s.now
    = (s.memory.records.filter fun r => r.Expires s.now).length := by
  have hsplit := List.length_eq_length_filter_add (l := s.memory.records)
    (fun r => decide (r.Expires s.now))
  have hswept := congrArg List.length s.records_sweep
  simp only [decide_not] at hswept
  show s.memory.records.length - (s.play .sweep).memory.records.length = _
  omega

/-- **The latest record decides.** After any records, sweeps, clearings and passings of time, a name has
the value of its latest record since the memory was last cleared if that has settled and has not reached
its lifetime, and none otherwise, and each fact that counts is listed once. What has expired never counts
again unless a fact of its name is recorded. The memory holds latest records only; sweeping leaves out
those that have expired and no others, and answers how many they are. Of settings a delay below zero is
none and a limit below zero is never reached. -/
theorem latest_counts (ms : List Move) :
    let s := Moment.after {} ms
    let c := Chronicle.after {} ms
    (∀ r ∈ c.written, r.created ≤ s.now) ∧
    (∀ name v, s.memory.validValue? s.now name = some v ↔
      ∃ r, c.latest? name = some r ∧ r.fact.value = v ∧ r.Counts s.now) ∧
    (∀ f, f ∈ s.validFacts ↔
      ∃ r, c.latest? f.name = some r ∧ r.fact = f ∧ r.Counts s.now) ∧
    (s.validFacts.map (·.name)).Nodup ∧
    (∀ name r, c.latest? name = some r → r.Expires s.now →
      ∀ ms', (∀ m ∈ ms', ¬ m.Renews name) →
        (s.after ms').memory.validValue? (s.after ms').now name = none ∧
          ∀ f ∈ (s.after ms').validFacts, f.name ≠ name) ∧
    (∀ r ∈ s.memory.records, c.latest? r.fact.name = some r) ∧
    (s.play .sweep).memory.records = (s.memory.records.filter fun r => ¬ r.Expires s.now) ∧
    s.memory.sweepCount s.now = (s.memory.records.filter fun r => r.Expires s.now).length ∧
    ∀ (r : FactRecord) delay limit t, r.validity = .ofSettings delay limit →
      (r.Counts t ↔ delay ≤ ((t - r.created : Nat) : Int) ∧
        (0 ≤ limit → ((t - r.created : Nat) : Int) < limit)) := by
  intro s c
  have h : s.Keeps c := keeps_empty.after ms
  refine ⟨?_, h.validValue?, h.mem_validFacts, h.nodup_validFacts, ?_, h.latest, s.records_sweep,
    s.sweepCount_eq, ?_⟩
  · rw [h.now]
    exact Chronicle.Past.after ms (fun _ hr => by cases hr)
  · intro name r hr hx ms' hms'
    refine (h.after ms').never_counts (h.expired_after (fun r' hr' => ?_) ms' hms')
    obtain rfl := Option.some.inj (hr.symm.trans hr')
    exact FactRecord.expired_iff.mpr hx
  · intro r delay limit t hv
    rw [← FactRecord.valid_iff, FactRecord.valid, hv]
    exact Validity.validAt_ofSettings delay limit

end Moment

end FactMemory

end ReactiveRules
