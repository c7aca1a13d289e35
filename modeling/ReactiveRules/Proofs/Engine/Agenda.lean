import ReactiveRules.Run.Basic

/-!
# `Proofs/Engine/Agenda.lean` — what is put off

Of an engine, an agenda tells which runs have their evaluation put off and what each instance believes
it has put off. It changes only by an `Agenda.Event`: an evaluation fires, lapses because it was
cancelled, is put off in place of another, or what an instance has put off is dropped.

**`Agenda.Sound`: an instance believes that the evaluation of a run is put off exactly when it is and
has not been cancelled.** Generations tell the deferrals of an instance apart, so an old one that fires
late takes no newer one down.
-/

set_option autoImplicit false

namespace ReactiveRules

/-- The evaluation of a run, put off. -/
structure Deferral where
  /-- The number of the instance. -/
  rule : Nat
  generation : Nat
  due : Nat
  cancelled : Bool
  deriving DecidableEq

def Deferral.cancel (x : Deferral) : Deferral := { x with cancelled := true }

/-- The deferral at which the run stands, if it stands at one. -/
def Run.deferral? (x : Run) : Option Deferral :=
  match x.stage with
  | .deferred g due c => some ⟨x.rule, g, due, c⟩
  | _ => none

structure Agenda where
  /-- By the number of the run. -/
  deferral : Nat → Option Deferral
  /-- What each instance has put off: the generation, and the run. -/
  pending : Nat → Option (Nat × Nat)
  generation : Nat → Nat

namespace Agenda

/-- What can happen to what is put off. -/
inductive Event where
  | rest
  /-- The evaluation of the run takes place. -/
  | fires (r : Nat)
  /-- The deferral was cancelled, and the run has heard of it. -/
  | lapses (r : Nat)
  /-- The evaluation of the run `r` of the instance `n` is put off. -/
  | putsOff (r n due : Nat)
  /-- What the instance has put off will not take place. -/
  | drops (n : Nat)

/-- The deferrals when what an instance has put off is called off. -/
def callOff (A : Agenda) (n r : Nat) : Option Deferral :=
  match A.pending n with
  | some (_, p) => if p = r then (A.deferral r).map Deferral.cancel else A.deferral r
  | none => A.deferral r

def after (A : Agenda) : Event → Agenda
  | .rest => A
  | .fires r =>
    { A with
      deferral := fun m => if r = m then none else A.deferral m
      pending := fun n =>
        match A.deferral r with
        | some x => if x.rule = n then (A.pending n).filter (·.1 != x.generation) else A.pending n
        | none => A.pending n }
  | .lapses r => { A with deferral := fun m => if r = m then none else A.deferral m }
  | .putsOff r n due =>
    { deferral := fun m =>
        if r = m then some ⟨n, A.generation n + 1, due, false⟩ else A.callOff n m
      pending := fun k => if n = k then some (A.generation n + 1, r) else A.pending k
      generation := fun k => if n = k then A.generation n + 1 else A.generation k }
  | .drops n =>
    { A with
      deferral := A.callOff n
      pending := fun k => if n = k then none else A.pending k }

/-- Can the event happen at a time? -/
def Allows (A : Agenda) (now : Nat) : Event → Prop
  | .rest | .drops _ => True
  | .fires r => ∃ x, A.deferral r = some x ∧ x.due ≤ now
  | .lapses r => ∃ x, A.deferral r = some x ∧ x.cancelled = true
  | .putsOff r _ due => A.deferral r = none ∧ now < due

/-- Does the event call off what the instance has put off? -/
def Event.Disturbs (n : Nat) : Event → Prop
  | .putsOff _ m _ | .drops m => m = n
  | _ => False

variable {A : Agenda} {now : Nat} {e : Event}

theorem callOff_of_ne {n r : Nat} (h : ∀ g, A.pending n ≠ some (g, r)) :
    A.callOff n r = A.deferral r := by
  unfold callOff
  split
  · next g p hp =>
    split
    · next hr => exact absurd (hr ▸ hp) (h g)
    · rfl
  · rfl

theorem callOff_of_pending {n r g : Nat} (h : A.pending n = some (g, r)) :
    A.callOff n r = (A.deferral r).map Deferral.cancel := by
  unfold callOff
  rw [h]
  exact if_pos rfl

/-! ## What an event does to one deferral -/

/-- A deferral that is there afterwards stood there before, as it is or not yet cancelled, or the run
has just had its evaluation put off. -/
theorem deferral_before {r : Nat} {y : Deferral} (hy : (A.after e).deferral r = some y) :
    A.deferral r = some y ∨
      (∃ n x g, A.deferral r = some x ∧ y = x.cancel ∧ A.pending n = some (g, r) ∧ e.Disturbs n) ∨
      ∃ n due, e = .putsOff r n due ∧ y = ⟨n, A.generation n + 1, due, false⟩ := by
  have hcallOff : ∀ n, A.callOff n r = some y → e.Disturbs n → A.deferral r = some y ∨
      ∃ n x g, A.deferral r = some x ∧ y = x.cancel ∧ A.pending n = some (g, r) ∧ e.Disturbs n := by
    intro n hc hd
    by_cases hp : ∃ g, A.pending n = some (g, r)
    · obtain ⟨g, hp⟩ := hp
      rw [callOff_of_pending hp, Option.map_eq_some_iff] at hc
      obtain ⟨x, hx, rfl⟩ := hc
      exact .inr ⟨n, x, g, hx, rfl, hp, hd⟩
    · rw [callOff_of_ne fun g hg => hp ⟨g, hg⟩] at hc
      exact .inl hc
  cases e with
  | rest => exact .inl hy
  | fires m =>
    simp only [after] at hy
    split at hy
    · cases hy
    · exact .inl hy
  | lapses m =>
    simp only [after] at hy
    split at hy
    · cases hy
    · exact .inl hy
  | putsOff m n due =>
    simp only [after] at hy
    split at hy
    · next hm =>
      subst hm
      exact .inr (.inr ⟨n, due, rfl, (Option.some.inj hy).symm⟩)
    · exact (hcallOff n hy rfl).imp_right .inl
  | drops n => exact (hcallOff n hy rfl).imp_right .inl

/-- A deferral ends only when it fires or lapses. -/
theorem ends_of_none {r : Nat} {x : Deferral} (h : A.deferral r = some x)
    (hn : (A.after e).deferral r = none) : e = .fires r ∨ e = .lapses r := by
  have hcallOff : ∀ n, A.callOff n r ≠ none := by
    intro n hc
    unfold callOff at hc
    split at hc
    · split at hc <;> rw [h] at hc <;> cases hc
    · rw [h] at hc
      cases hc
  cases e with
  | rest => rw [show A.after .rest = A from rfl, h] at hn; cases hn
  | fires m =>
    simp only [after] at hn
    split at hn
    · next hm => exact .inl (by rw [hm])
    · rw [h] at hn
      cases hn
  | lapses m =>
    simp only [after] at hn
    split at hn
    · next hm => exact .inr (by rw [hm])
    · rw [h] at hn
      cases hn
  | putsOff m n due =>
    simp only [after] at hn
    split at hn
    · cases hn
    · exact absurd hn (hcallOff n)
  | drops n => exact absurd hn (hcallOff n)

/-! ## What instances believe -/

structure Sound (A : Agenda) : Prop where
  pending : ∀ n g r, A.pending n = some (g, r) ↔ ∃ due, A.deferral r = some ⟨n, g, due, false⟩
  /-- Deferrals of one instance have different generations. -/
  distinct : ∀ r s x y, A.deferral r = some x → A.deferral s = some y → x.rule = y.rule →
    x.generation = y.generation → r = s
  le : ∀ r x, A.deferral r = some x → x.generation ≤ A.generation x.rule

theorem Sound.of_none (hd : ∀ r, A.deferral r = none) (hp : ∀ n, A.pending n = none) : A.Sound where
  pending := by simp [hd, hp]
  distinct := by simp [hd]
  le := by simp [hd]

/-- At most one deferral of an instance has not been cancelled. -/
theorem Sound.alive_unique (h : A.Sound) {n r s g k d t : Nat}
    (hr : A.deferral r = some ⟨n, g, d, false⟩) (hs : A.deferral s = some ⟨n, k, t, false⟩) :
    r = s := by
  have hpr := (h.pending n g r).mpr ⟨d, hr⟩
  have hps := (h.pending n k s).mpr ⟨t, hs⟩
  rw [hpr] at hps
  cases hps
  rfl

/-- What disturbs the instance cancels what it has put off. -/
theorem Sound.cancelled_of_disturbs (h : A.Sound) {r : Nat} {x : Deferral}
    (hx : A.deferral r = some x) (ha : A.Allows now e) (hd : e.Disturbs x.rule) :
    (A.after e).deferral r = some x.cancel := by
  have hcallOff : A.callOff x.rule r = some x.cancel := by
    by_cases hc : x.cancelled = true
    · have hx' : x.cancel = x := by rw [Deferral.cancel, ← hc]
      rw [callOff_of_ne, hx, hx']
      intro g hg
      obtain ⟨due, hlive⟩ := (h.pending _ _ _).mp hg
      rw [hx] at hlive
      have hfalse : x.cancelled = false := by rw [Option.some.inj hlive]
      rw [hc] at hfalse
      cases hfalse
    · have hp : A.pending x.rule = some (x.generation, r) := by
        refine (h.pending _ _ _).mpr ⟨x.due, ?_⟩
        rw [hx, ← Bool.eq_false_iff.mpr hc]
      rw [callOff_of_pending hp, hx]
      rfl
  cases e with
  | putsOff m n due =>
    have hn : n = x.rule := hd
    have hm : m ≠ r := by
      rintro rfl
      rw [ha.1] at hx
      cases hx
    simp only [after, if_neg hm, hn]
    exact hcallOff
  | drops n =>
    have hn : n = x.rule := hd
    rw [hn]
    exact hcallOff
  | _ => exact absurd hd id

/-- Calling off leaves generations and instances as they are. -/
theorem callOff_some {n r : Nat} {y : Deferral} (h : A.callOff n r = some y) :
    ∃ x, A.deferral r = some x ∧ y.rule = x.rule ∧ y.generation = x.generation ∧
      (y.cancelled = false → y = x) := by
  by_cases hp : ∃ g, A.pending n = some (g, r)
  · obtain ⟨g, hp⟩ := hp
    rw [callOff_of_pending hp, Option.map_eq_some_iff] at h
    obtain ⟨x, hx, rfl⟩ := h
    exact ⟨x, hx, rfl, rfl, fun hc => by cases hc⟩
  · rw [callOff_of_ne fun g hg => hp ⟨g, hg⟩] at h
    exact ⟨y, h, rfl, rfl, fun _ => rfl⟩

/-- What is not called off is of another instance. -/
theorem Sound.callOff_alive (h : A.Sound) {n k r g due : Nat} :
    A.callOff n r = some ⟨k, g, due, false⟩ ↔ A.deferral r = some ⟨k, g, due, false⟩ ∧ k ≠ n := by
  constructor
  · intro hc
    obtain ⟨x, hx, -, -, hsame⟩ := callOff_some hc
    rw [← hsame rfl] at hx
    refine ⟨hx, ?_⟩
    rintro rfl
    rw [callOff_of_pending ((h.pending k g r).mpr ⟨due, hx⟩), hx] at hc
    cases hc
  · rintro ⟨hx, hk⟩
    rw [callOff_of_ne, hx]
    intro g' hp
    obtain ⟨due', hx'⟩ := (h.pending n g' r).mp hp
    rw [hx] at hx'
    cases hx'
    exact hk rfl

/-- Calling off makes no two deferrals alike. -/
theorem Sound.distinct_callOff (h : A.Sound) {n r s : Nat} {x y : Deferral}
    (hx : A.callOff n r = some x) (hy : A.callOff n s = some y) (hr : x.rule = y.rule)
    (hg : x.generation = y.generation) : r = s := by
  obtain ⟨x', hx', hxr, hxg, -⟩ := callOff_some hx
  obtain ⟨y', hy', hyr, hyg, -⟩ := callOff_some hy
  exact h.distinct r s x' y' hx' hy' (by rw [← hxr, ← hyr, hr]) (by rw [← hxg, ← hyg, hg])

theorem Sound.le_callOff (h : A.Sound) {n r : Nat} {x : Deferral} (hx : A.callOff n r = some x) :
    x.generation ≤ A.generation x.rule := by
  obtain ⟨x', hx', hr, hg, -⟩ := callOff_some hx
  rw [hr, hg]
  exact h.le r x' hx'

/-! ### Events keep beliefs true -/

/-- A deferral ends, and what is believed of it goes. -/
theorem Sound.ends (h : A.Sound) {r : Nat} {p : Nat → Option (Nat × Nat)}
    (hp : ∀ n g m, p n = some (g, m) ↔ A.pending n = some (g, m) ∧ r ≠ m) :
    Sound { A with deferral := fun m => if r = m then none else A.deferral m, pending := p } := by
  have hsome : ∀ {m x}, (if r = m then none else A.deferral m) = some x → A.deferral m = some x := by
    intro m x hx
    split at hx
    · cases hx
    · exact hx
  refine ⟨fun n g m => ?_, fun m s y z hy hz => h.distinct m s y z (hsome hy) (hsome hz),
    fun m y hy => h.le m y (hsome hy)⟩
  rw [hp, h.pending]
  by_cases hm : r = m <;> simp [hm]

/-- A deferral that fires takes down what its instance believes of it, and nothing else: a newer one has
another generation. -/
theorem Sound.fires (h : A.Sound) {r : Nat} {x : Deferral} (hx : A.deferral r = some x) :
    (A.after (.fires r)).Sound := by
  -- whatever an instance believes of the run is this deferral
  have hself : ∀ {k g}, A.pending k = some (g, r) → x.rule = k ∧ g = x.generation := by
    intro k g hp
    obtain ⟨due, hlive⟩ := (h.pending k g r).mp hp
    rw [hx] at hlive
    cases hlive
    exact ⟨rfl, rfl⟩
  refine h.ends fun n g m => ?_
  simp only [hx]
  split
  · next hn =>
    rw [Option.filter_eq_some_iff]
    refine and_congr_right fun hp => ⟨?_, ?_⟩
    · rintro hne rfl
      simp [(hself hp).2] at hne
    · intro hm
      obtain ⟨due, hy⟩ := (h.pending n g m).mp hp
      have hne : g ≠ x.generation :=
        fun hg => hm (h.distinct r m x _ hx hy hn hg.symm)
      simpa using hne
  · next hn =>
    refine ⟨fun hp => ⟨hp, ?_⟩, fun hp => hp.1⟩
    rintro rfl
    exact hn (hself hp).1

/-- Of a deferral that was cancelled nothing is believed. -/
theorem Sound.lapses (h : A.Sound) {r : Nat} {x : Deferral} (hx : A.deferral r = some x)
    (hc : x.cancelled = true) : (A.after (.lapses r)).Sound := by
  refine h.ends fun n g m => ⟨fun hp => ⟨hp, ?_⟩, fun hp => hp.1⟩
  rintro rfl
  obtain ⟨due, hlive⟩ := (h.pending n g r).mp hp
  rw [hx] at hlive
  cases hlive
  cases hc

/-- A new deferral has a generation of its own. -/
theorem Sound.putsOff (h : A.Sound) {r : Nat} (hr : A.deferral r = none) (n due : Nat) :
    (A.after (.putsOff r n due)).Sound := by
  have hnew : ∀ m y, A.callOff n m = some y → y.rule = n → y.generation ≠ A.generation n + 1 := by
    intro m y hy hn
    have hle := h.le_callOff hy
    rw [hn] at hle
    omega
  refine ⟨fun k g m => ?_, fun m s y z hy hz hrule hgen => ?_, fun m y hy => ?_⟩
  · simp only [after]
    by_cases hm : r = m
    · subst hm
      have hnone : A.pending k ≠ some (g, r) := by
        intro hp
        obtain ⟨d, hlive⟩ := (h.pending k g r).mp hp
        rw [hr] at hlive
        cases hlive
      by_cases hk : n = k
      · subst hk
        simp
      · simp [hk, hnone]
    · simp only [if_neg hm, h.callOff_alive]
      rw [exists_and_right, ← h.pending]
      by_cases hk : n = k
      · simp [hk, hm]
      · simp [hk, Ne.symm hk]
  · simp only [after] at hy hz
    split at hy
    · next hm =>
      cases hy
      split at hz
      · next hs => rw [← hm, hs]
      · exact absurd hgen.symm (hnew s z hz hrule.symm)
    · split at hz
      · cases hz
        exact absurd hgen (hnew m y hy hrule)
      · exact h.distinct_callOff hy hz hrule hgen
  · simp only [after] at hy ⊢
    split at hy
    · cases hy
      simp
    · have hle := h.le_callOff hy
      split
      · next hn =>
        rw [← hn] at hle
        omega
      · exact hle

theorem Sound.drops (h : A.Sound) (n : Nat) : (A.after (.drops n)).Sound := by
  refine ⟨fun k g m => ?_, fun m s y z hy hz => h.distinct_callOff hy hz, fun m y hy => h.le_callOff hy⟩
  simp only [after, h.callOff_alive]
  rw [exists_and_right, ← h.pending]
  by_cases hk : n = k
  · simp [hk]
  · simp [hk, Ne.symm hk]

/-- **What instances believe stays true, whatever happens.** -/
theorem Sound.after (h : A.Sound) (ha : A.Allows now e) : (A.after e).Sound := by
  cases e with
  | rest => exact h
  | fires r =>
    obtain ⟨x, hx, -⟩ := ha
    exact h.fires hx
  | lapses r =>
    obtain ⟨x, hx, hc⟩ := ha
    exact h.lapses hx hc
  | putsOff r n due => exact h.putsOff ha.1 n due
  | drops n => exact h.drops n

end Agenda

end ReactiveRules
