import ReactiveRules.Proofs.Engine.Runs

/-!
# `Proofs/Engine/Slots.lean` — a slot counts the runs in flight

A run holds the slot of its instance from its start to its end, whichever way it ends, and slots can
be held by name from outside. **The count of a slot is the number of both**
(`Core.Counted.held`), between any two turns of any jobs, and a slot that is not parallel is held
at most once. The invariant needs that a name holds at most one slot, since giving it back takes the
name away.
-/

set_option autoImplicit false

namespace ReactiveRules

namespace Core

def occupies (n : Nat) (x : Run) : Bool := x.rule == n && x.stage.inFlight

/-- The number of runs of an instance that are in flight. -/
def occupants (C : Core) (n : Nat) : Nat := C.runs.countP (occupies n)

/-- How often the slot of an instance is held by name. -/
def guarded (C : Core) (n : Nat) : Nat := C.guards.countP (·.2 == n)

/-- Slots count those who hold them. -/
structure Counted (C : Core) : Prop where
  held : ∀ n, n < C.instances.length → (C.ruleAt n).slot.held = C.occupants n + C.guarded n
  parallel : ∀ n, n < C.instances.length →
    (C.ruleAt n).slot.parallel = (C.ruleAt n).definition.parallel
  one : ∀ n, n < C.instances.length → (C.ruleAt n).slot.parallel = false →
    (C.ruleAt n).slot.held ≤ 1
  claimed : ∀ r, r < C.runs.length → (C.runAt r).claimed = (C.runAt r).stage.inFlight
  guards : ∀ p ∈ C.guards, p.2 < C.instances.length
  names : (C.guards.map (·.1)).Nodup

variable {C C' : Core}

/-! ## Runs -/

/-- A run that is in flight is one of those that the slot counts. -/
theorem occupants_pos {r : Nat} (hr : r < C.runs.length)
    (hi : (C.runAt r).stage.inFlight = true) : 0 < C.occupants (C.runAt r).rule := by
  apply List.countP_pos_iff.mpr
  refine ⟨C.runAt r, ?_, by simp [occupies, hi]⟩
  simp [runAt, hr]

/-- A scene that is put back takes what its run occupied, and gives what it occupies now. -/
theorem occupants_put (C : Core) {S : Scene} {r : Nat} (hnum : S.number = r) (hr : r < C.runs.length)
    (n : Nat) : (C.put S).occupants n + (if occupies n (C.runAt r) then 1 else 0)
      = C.occupants n + if occupies n S.run then 1 else 0 := by
  have hset := countP_set_add (occupies n) hr S.run default
  rw [← hnum] at hset ⊢
  exact hset

end Core

/-- The books of a turn: what it leaves of the count of the slot. -/
structure Scene.Balances (S S' : Scene) : Prop where
  number : S'.number = S.number
  rule : S'.run.rule = S.run.rule
  definition : S'.rule.definition = S.rule.definition
  parallel : S'.rule.slot.parallel = S.rule.slot.parallel
  claimed : S'.run.claimed = S'.run.stage.inFlight
  held : S'.rule.slot.held + (if S.run.stage.inFlight then 1 else 0)
    = S.rule.slot.held + if S'.run.stage.inFlight then 1 else 0
  one : S.rule.slot.parallel = false → S.rule.slot.held ≤ 1 → S'.rule.slot.held ≤ 1

namespace Scene

variable {now : Nat} {S S' : Scene} {ls : List Listener}

theorem claim?_held {s t : Slot Nat} (h : s.claim? = some t) :
    t.held = s.held + 1 ∧ (s.parallel = false → s.held = 0) := by
  unfold Slot.claim? at h
  split at h
  · next ho =>
    cases h
    refine ⟨rfl, fun hp => ?_⟩
    simpa [Slot.isOpen, hp] using ho
  · cases h

/-- A run in flight that leaves its turn gives back what it held, or holds it on. -/
theorem Leaves.balance {X : Scene} (h : Leaves now X S') (hc : X.run.claimed = true)
    (hpos : 0 < X.rule.slot.held) :
    S'.run.claimed = S'.run.stage.inFlight ∧
      S'.rule.slot.held + 1 = X.rule.slot.held + if S'.run.stage.inFlight then 1 else 0 := by
  cases h with
  | ends hs ha hc' hh =>
    -- it held the slot, and gives it back
    have hi : S'.run.stage.inFlight = false := by rw [hs]; rfl
    simp only [left, hc, if_true] at hh
    exact ⟨by rw [hc', hi], by rw [hi, hh]; simp; omega⟩
  | stays hs hc' hh hd => exact ⟨by rw [hc', hc, hs], by rw [hs, hh]; simp⟩

/-- **Every way through a turn balances.** -/
theorem Turn.balances (h : Turn now ls S S') (hc : S.run.claimed = S.run.stage.inFlight)
    (hpos : S.run.stage.inFlight = true → 0 < S.rule.slot.held) : S.Balances S' := by
  have hf := h.follows
  suffices hb : S'.run.claimed = S'.run.stage.inFlight ∧
      S'.rule.slot.held + (if S.run.stage.inFlight then 1 else 0)
        = S.rule.slot.held + (if S'.run.stage.inFlight then 1 else 0) ∧
      (S.rule.slot.parallel = false → S.rule.slot.held ≤ 1 → S'.rule.slot.held ≤ 1) from
    ⟨hf.number, hf.rule, hf.inst.definition, hf.inst.parallel, hb.1, hb.2.1, hb.2.2⟩
  cases h.passes with
  | leaves hl hi =>
    cases hfl : S.run.stage.inFlight with
    | true =>
      obtain ⟨hc', hh⟩ := hl.balance (hc.trans hfl) (hpos hfl)
      refine ⟨hc', by simpa using hh, fun _ hone => ?_⟩
      split at hh <;> omega
    | false =>
      have hi' : S'.run.stage.inFlight = false := hi.resolve_left (by rw [hfl]; simp)
      cases hl with
      | ends hs ha hc' hh =>
        have hh' : S'.rule.slot.held = S.rule.slot.held := by simpa [left, hc, hfl] using hh
        exact ⟨by rw [hc', hi'], by simp [hi', hh'], fun _ hone => by omega⟩
      | stays hs hc' hh hd => rw [hs] at hi'; cases hi'
  | @claims hi slot hs X hX hcX hl =>
    -- a slot that is not parallel was open, so nobody held it
    obtain ⟨hheld, hzero⟩ := claim?_held hs
    have hXh : X.rule.slot.held = S.rule.slot.held + 1 := by rw [hX, hheld]
    obtain ⟨hc', hh⟩ := hl.balance hcX (by omega)
    refine ⟨hc', by simp [hi]; omega, fun hp _ => ?_⟩
    have := hzero hp
    split at hh <;> omega
  | waits hi hi' hc' hh =>
    exact ⟨by rw [hc', hc, hi, hi'], by simp [hi, hi', hh], fun _ hone => by omega⟩

theorem defer_balances (hs : S.run.stage.inFlight = false)
    (hc : S.run.claimed = S.run.stage.inFlight) : S.Balances ((S.accept now).defer now) where
  number := rfl
  rule := rfl
  definition := rfl
  parallel := rfl
  claimed := hc.trans hs
  held := by rw [hs]; rfl
  one := fun _ h => h

theorem abandon_balances (hc : S.run.claimed = S.run.stage.inFlight)
    (hpos : S.run.stage.inFlight = true → 0 < S.rule.slot.held) : S.Balances S.abandon := by
  have hh : S.abandon.rule.slot.held = S.left := (S.mapSlot (·.forget S.number)).freed_held
  have hf : S.Follows 0 S.abandon := S.follows_abandon
  refine ⟨rfl, rfl, rfl, hf.inst.parallel, rfl, ?_, fun _ hone => ?_⟩
  · have hi : S.abandon.run.stage.inFlight = false := rfl
    rw [hh, hi, left, hc]
    cases hfl : S.run.stage.inFlight with
    | true =>
      have := hpos hfl
      simp
      omega
    | false => simp
  · rw [hh, left]
    split <;> omega

end Scene

namespace Core.Counted

variable {C C' : Core}

/-- The count of a slot goes with what the run occupies. -/
theorem held_put (h : C.Counted) {r : Nat} (hr : r < C.runs.length) {S : Scene}
    (hS : (C.scene r).Balances S) (hn : S.run.rule < C.instances.length) {n : Nat}
    (hn' : n < C.instances.length) :
    ((C.put S).ruleAt n).slot.held = (C.put S).occupants n + (C.put S).guarded n := by
  have hnum : S.number = r := hS.number
  have hrule : S.run.rule = (C.runAt r).rule := hS.rule
  have hb := hS.held
  have hh := h.held n hn'
  have ho := C.occupants_put hnum hr n
  have hg : (C.put S).guarded n = C.guarded n := rfl
  rw [C.ruleAt_put hn, hg]
  -- the run counts for its own instance only
  by_cases hrn : S.run.rule = n
  · subst hrn
    rw [if_pos rfl]
    have hold : (C.scene r).rule = C.ruleAt S.run.rule := by rw [hrule]; rfl
    have hrun : (C.scene r).run = C.runAt r := rfl
    simp only [occupies, ← hrule, beq_self_eq_true, Bool.true_and] at ho
    rw [hold, hrun] at hb
    omega
  · rw [if_neg hrn]
    have h1 : occupies n S.run = false := by simp [occupies, hrn]
    have h2 : occupies n (C.runAt r) = false := by simp [occupies, ← hrule, hrn]
    simp only [h1, h2] at ho
    simpa [hh] using ho.symm

/-- A scene that balances keeps the books. -/
theorem put (h : C.Counted) (hv : C.Valid) {r : Nat} (hr : r < C.runs.length) {S : Scene}
    (hS : (C.scene r).Balances S) : (C.put S).Counted := by
  have hnum : S.number = r := hS.number
  have hrule : S.run.rule = (C.runAt r).rule := hS.rule
  have hn : S.run.rule < C.instances.length := hrule ▸ hv.run r hr
  have hinst : (C.put S).instances.length = C.instances.length := by simp [Core.put]
  refine ⟨fun n hn' => h.held_put hr hS hn (hinst ▸ hn'), ?_, ?_, ?_, ?_, h.names⟩
  · intro n hn'
    rw [C.ruleAt_put hn]
    split
    · next hrn =>
      subst hrn
      have hp := h.parallel _ hn
      rw [hS.parallel, hS.definition]
      rw [hrule] at hp
      exact hp
    · exact h.parallel n (hinst ▸ hn')
  · intro n hn' hp
    rw [C.ruleAt_put hn] at hp ⊢
    split
    · next hrn =>
      subst hrn
      rw [if_pos rfl, hS.parallel] at hp
      have hone := h.one _ hn
      rw [hrule] at hone
      exact hS.one hp (hone hp)
    · next hrn =>
      rw [if_neg hrn] at hp
      exact h.one n (hinst ▸ hn') hp
  · intro m hm
    rw [C.runAt_put (hnum ▸ hr), hnum]
    split
    · exact hS.claimed
    · exact h.claimed m (by simpa [Core.put] using hm)
  · intro p hp
    rw [hinst]
    exact h.guards p hp

/-! ## Everything else -/

/-- What changes neither slots nor who is in flight keeps the books. -/
theorem same (h : C.Counted) (hlen : C'.instances.length = C.instances.length)
    (hrule : ∀ n, n < C.instances.length → (C'.ruleAt n).slot = (C.ruleAt n).slot ∧
      (C'.ruleAt n).definition = (C.ruleAt n).definition)
    (hocc : ∀ n, C'.occupants n = C.occupants n)
    (hclaimed : ∀ r, r < C'.runs.length → (C'.runAt r).claimed = (C'.runAt r).stage.inFlight)
    (hg : C'.guards = C.guards) : C'.Counted := by
  refine ⟨?_, ?_, ?_, hclaimed, ?_, ?_⟩
  · intro n hn
    rw [hlen] at hn
    rw [(hrule n hn).1, hocc, guarded, hg]
    exact h.held n hn
  · intro n hn
    rw [hlen] at hn
    rw [(hrule n hn).1, (hrule n hn).2]
    exact h.parallel n hn
  · intro n hn
    rw [hlen] at hn
    rw [(hrule n hn).1]
    exact h.one n hn
  · rw [hg, hlen]
    exact h.guards
  · rw [hg]
    exact h.names

theorem cancelDeferral (h : C.Counted) (p : Nat) : (C.cancelDeferral p).Counted := by
  have hx : ∀ x : Run, x.cancelDeferral.stage.inFlight = x.stage.inFlight ∧
      x.cancelDeferral.claimed = x.claimed := by
    intro x
    unfold Run.cancelDeferral
    split
    · next hs => exact ⟨by rw [hs]; rfl, rfl⟩
    · exact ⟨rfl, rfl⟩
  refine h.same rfl (fun _ _ => ⟨rfl, rfl⟩) ?_ ?_ rfl
  · intro n
    have hp : ∀ x, occupies n x.cancelDeferral = occupies n x := by
      intro x
      simp [occupies, (hx x).1]
    by_cases hr : p < C.runs.length
    · have hset : C.runs.modify p Run.cancelDeferral
          = C.runs.set p (C.runs.getD p default).cancelDeferral := by
        rw [← modify_set, set_getD_self]
      have hc := countP_set_add (occupies n) hr (C.runs.getD p default).cancelDeferral default
      rw [hp] at hc
      simp only [occupants, Core.cancelDeferral, hset]
      omega
    · rw [occupants, Core.cancelDeferral, List.modify_eq_self (Nat.le_of_not_lt hr)]
      rfl
  · intro r hr
    have hr' : r < C.runs.length := by simpa [Core.cancelDeferral] using hr
    rw [C.runAt_cancelDeferral]
    split
    · rw [(hx _).1, (hx _).2]
      exact h.claimed r hr'
    · exact h.claimed r hr'

theorem cancelPending (h : C.Counted) (p : Option (Nat × Nat)) : (C.cancelPending p).Counted := by
  cases p with
  | none => exact h
  | some p => exact h.cancelDeferral p.2

theorem retire (h : C.Counted) (n : Nat) (p : Option (Nat × Nat)) : (C.retire n p).Counted := by
  have hm : (C.modifyInstance n (.mapRule Rule.retire)).Counted := by
    refine h.same (by simp [modifyInstance]) ?_ (fun _ => rfl) h.claimed rfl
    intro m hm
    rw [C.ruleAt_modifyInstance hm]
    split
    · exact ⟨rfl, rfl⟩
    · exact ⟨rfl, rfl⟩
  exact hm.cancelPending p

/-- Nobody can hold the slot of an instance that is not there. -/
theorem occupants_length (hv : C.Valid) : C.occupants C.instances.length = 0 := by
  refine List.countP_eq_zero.mpr fun x hx ho => ?_
  obtain ⟨r, hr, rfl⟩ := List.getElem_of_mem hx
  have hrun := hv.run r hr
  simp only [runAt, List.getD_eq_getElem?_getD, List.getElem?_eq_getElem hr,
    Option.getD_some] at hrun
  simp only [occupies, Bool.and_eq_true, beq_iff_eq] at ho
  omega

theorem guarded_length (h : C.Counted) : C.guarded C.instances.length = 0 := by
  refine List.countP_eq_zero.mpr fun p hp hn => ?_
  have hlt := h.guards p hp
  simp only [beq_iff_eq] at hn
  omega

theorem addInstance (h : C.Counted) (hv : C.Valid) (d : Definition) (rs : List (String × Nat)) :
    ({ C with instances := C.instances ++ [.ofDefinition d], registered := rs } : Core).Counted := by
  have hold : ∀ n, n < C.instances.length →
      ({ C with instances := C.instances ++ [.ofDefinition d], registered := rs } : Core).ruleAt n
        = C.ruleAt n := fun n hn => getD_append _ hn
  have hnew : ({ C with instances := C.instances ++ [.ofDefinition d], registered := rs } :
      Core).ruleAt C.instances.length = .ofDefinition d := by
    simp [ruleAt]
  have hcases : ∀ n, n < (C.instances ++ [Instance.ofDefinition d]).length →
      n < C.instances.length ∨ n = C.instances.length := by
    intro n hn
    simp at hn
    omega
  refine ⟨?_, ?_, ?_, h.claimed, ?_, h.names⟩
  · intro n hn
    rcases hcases n hn with hn | rfl
    · rw [hold n hn]
      exact h.held n hn
    · rw [hnew]
      exact (congrArg₂ (· + ·) (occupants_length hv) h.guarded_length).symm
  · intro n hn
    rcases hcases n hn with hn | rfl
    · rw [hold n hn]
      exact h.parallel n hn
    · rw [hnew]
      rfl
  · intro n hn
    rcases hcases n hn with hn | rfl
    · rw [hold n hn]
      exact h.one n hn
    · rw [hnew]
      intro _
      exact Nat.zero_le 1
  · intro p hp
    have := h.guards p hp
    simp
    omega

theorem spawn (h : C.Counted) (n : Nat) (t : Trigger) (a : Admission) (c : Client) :
    (C.spawn n t a c).Counted := by
  refine h.same rfl (fun _ _ => ⟨rfl, rfl⟩) ?_ ?_ rfl
  · intro m
    simp [occupants, Core.spawn, occupies, Stage.inFlight]
  · intro r hr
    by_cases hr' : r < C.runs.length
    · have hx : (C.spawn n t a c).runAt r = C.runAt r := getD_append _ hr'
      rw [hx]
      exact h.claimed r hr'
    · have hl : r = C.runs.length := by simp [Core.spawn] at hr; omega
      subst hl
      simp [Core.spawn, runAt, Stage.inFlight]

theorem alike (h : C.Counted) {is : List Instance} {t : Nat}
    (ha : List.Forall₂ Instance.Alike C.instances is) :
    ({ C with now := t, instances := is } : Core).Counted := by
  refine h.same ha.length_eq.symm ?_ (fun _ => rfl) h.claimed rfl
  intro n _
  have hi : (C.ruleAt n).Alike (is.getD n default) := alike_getD ha n
  exact ⟨congrArg (·.slot) hi.rest, congrArg (·.definition) hi.rest⟩

/-! ## Slots held by name -/

/-- A name that is taken away takes the one slot with it that it stands for. -/
theorem countP_names {name : String} {p : String × Nat} (q : String × Nat → Bool) :
    ∀ {gs : List (String × Nat)}, (gs.map (·.1)).Nodup → gs.find? (·.1 == name) = some p →
      gs.countP q = (gs.filter (·.1 != name)).countP q + if q p then 1 else 0 := by
  intro gs
  induction gs with
  | nil => intro _ hf; cases hf
  | cons g rest ih =>
    intro hnd hf
    rw [List.map_cons, List.nodup_cons] at hnd
    by_cases hg : g.1 = name
    · have hgp : g = p := by simpa [hg] using hf
      -- the name does not come a second time
      have hrest : rest.filter (·.1 != name) = rest := by
        apply List.filter_eq_self.mpr
        intro x hx
        have hne : x.1 ≠ name := by
          rintro rfl
          exact hnd.1 (hg ▸ List.mem_map_of_mem hx)
        simpa using hne
      have hfilter : (g :: rest).filter (·.1 != name) = rest := by simpa [hg] using hrest
      rw [hfilter, List.countP_cons, hgp]
    · have hf' : rest.find? (·.1 == name) = some p := by simpa [hg] using hf
      have hr := ih hnd.2 hf'
      have hfilter : (g :: rest).filter (·.1 != name) = g :: rest.filter (·.1 != name) := by
        simp [hg]
      rw [hfilter, List.countP_cons, List.countP_cons, hr]
      omega

/-- Giving back a slot by name takes as much from the count of the slot as from the names. -/
theorem unguard_held (hnames : (C.guards.map (·.1)).Nodup) (name : String) {m : Nat}
    (hm : m < C.instances.length) (hle : C.guarded m ≤ (C.ruleAt m).slot.held) :
    ((C.unguard name).ruleAt m).slot.held + C.guarded m
        = (C.ruleAt m).slot.held + (C.unguard name).guarded m ∧
      ((C.unguard name).ruleAt m).slot.held ≤ (C.ruleAt m).slot.held ∧
      ((C.unguard name).ruleAt m).slot.parallel = (C.ruleAt m).slot.parallel ∧
      ((C.unguard name).ruleAt m).definition = (C.ruleAt m).definition := by
  unfold unguard
  cases hf : C.guards.find? (·.1 == name) with
  | none => exact ⟨rfl, Nat.le_refl _, rfl, rfl⟩
  | some p =>
    have hr : ({ C.modifyInstance p.2 fun i => { i with slot := i.slot.release.1 } with
        guards := C.guards.filter (·.1 != name) } : Core).ruleAt m
        = if p.2 = m then { C.ruleAt m with slot := (C.ruleAt m).slot.release.1 }
          else C.ruleAt m := C.ruleAt_modifyInstance hm p.2 _
    have hc := countP_names (·.2 == m) hnames hf
    dsimp only
    rw [hr]
    simp only [guarded] at hle ⊢
    by_cases hn : p.2 = m
    · simp only [hn, if_true, Slot.release, beq_self_eq_true] at hc ⊢
      exact ⟨by omega, by omega, trivial, trivial⟩
    · have hn' : (p.2 == m) = false := by simpa using hn
      simp only [hn, hn', if_false, Bool.false_eq_true] at hc ⊢
      exact ⟨by omega, Nat.le_refl _, trivial, trivial⟩

theorem unguard_names (hnames : (C.guards.map (·.1)).Nodup) (name : String) :
    (∀ p ∈ (C.unguard name).guards, p ∈ C.guards ∧ p.1 ≠ name) ∧
      ((C.unguard name).guards.map (·.1)).Nodup := by
  unfold unguard
  cases hf : C.guards.find? (·.1 == name) with
  | none =>
    refine ⟨fun p hp => ⟨hp, ?_⟩, hnames⟩
    have := List.find?_eq_none.mp hf p hp
    simpa using this
  | some q =>
    refine ⟨fun p hp => ?_, ?_⟩
    · have hp' := List.mem_filter.mp hp
      exact ⟨hp'.1, by simpa using hp'.2⟩
    · exact hnames.sublist ((List.filter_sublist).map _)

theorem unguard_length (C : Core) (name : String) :
    (C.unguard name).instances.length = C.instances.length := by
  unfold Core.unguard
  split
  · simp [modifyInstance]
  · rfl

theorem guarded_le (h : C.Counted) {n : Nat} (hn : n < C.instances.length) :
    C.guarded n ≤ (C.ruleAt n).slot.held := by
  rw [h.held n hn]
  exact Nat.le_add_left _ _

theorem unguard (h : C.Counted) (name : String) : (C.unguard name).Counted := by
  have hlen := unguard_length C name
  have hocc : ∀ n, (C.unguard name).occupants n = C.occupants n := by simp [occupants]
  refine ⟨?_, ?_, ?_, ?_, ?_, (unguard_names h.names name).2⟩
  · intro n hn
    rw [hlen] at hn
    have hu := (unguard_held h.names name hn (h.guarded_le hn)).1
    have hh := h.held n hn
    rw [hocc]
    omega
  · intro n hn
    rw [hlen] at hn
    obtain ⟨-, -, hp, hd⟩ := unguard_held h.names name hn (h.guarded_le hn)
    rw [hp, hd]
    exact h.parallel n hn
  · intro n hn hp
    rw [hlen] at hn
    obtain ⟨-, hle, hp', -⟩ := unguard_held h.names name hn (h.guarded_le hn)
    exact Nat.le_trans hle (h.one n hn (hp'.symm.trans hp))
  · intro r hr
    rw [unguard_runAt]
    exact h.claimed r (by simpa using hr)
  · intro p hp
    rw [hlen]
    exact h.guards p ((unguard_names h.names name).1 p hp).1

theorem guard_runs (C : Core) (n : Nat) (name : String) (slot : Slot Nat) :
    (C.guard n name slot).runs = C.runs :=
  unguard_runs _ name

theorem guard_length (C : Core) (n : Nat) (name : String) (slot : Slot Nat) :
    (C.guard n name slot).instances.length = C.instances.length := by
  refine (unguard_length _ name).trans ?_
  simp [modifyInstance]

/-- A name that holds a slot stands for this slot and for no other. -/
theorem guard_names (hnames : (C.guards.map (·.1)).Nodup) (n : Nat) (name : String)
    (slot : Slot Nat) :
    (∀ p ∈ (C.guard n name slot).guards, p ∈ C.guards ∨ p = (name, n)) ∧
      ((C.guard n name slot).guards.map (·.1)).Nodup := by
  obtain ⟨hsub, hnd⟩ := unguard_names
    (C := C.modifyInstance n fun i => { i with slot }) hnames name
  refine ⟨?_, ?_⟩
  · intro p hp
    rcases List.mem_append.mp hp with hp | hp
    · exact .inl (hsub p hp).1
    · exact .inr (List.mem_singleton.mp hp)
  · show ((((C.modifyInstance n fun i => { i with slot }).unguard name).guards ++
      [(name, n)]).map (·.1)).Nodup
    rw [List.map_append, List.nodup_append]
    refine ⟨hnd, by simp, ?_⟩
    intro a ha b hb
    obtain ⟨p, hp, rfl⟩ := List.mem_map.mp ha
    simp only [List.map_cons, List.map_nil, List.mem_singleton] at hb
    rw [hb]
    exact (hsub p hp).2

/-- Holding a slot by name, in place of the one that the name held, adds as much to the count of
each slot as to the names. -/
theorem guard_held (h : C.Counted) {n : Nat} {slot : Slot Nat}
    (hc : (C.ruleAt n).slot.claim? = some slot) (name : String) {m : Nat}
    (hm : m < C.instances.length) :
    ((C.guard n name slot).ruleAt m).slot.held + C.guarded m
        = (C.ruleAt m).slot.held + (C.guard n name slot).guarded m ∧
      ((C.guard n name slot).ruleAt m).slot.parallel = (C.ruleAt m).slot.parallel ∧
      ((C.guard n name slot).ruleAt m).definition = (C.ruleAt m).definition ∧
      ((C.ruleAt m).slot.parallel = false → ((C.guard n name slot).ruleAt m).slot.held ≤ 1) := by
  obtain ⟨hheld, hzero⟩ := Scene.claim?_held hc
  have hpar := Scene.claim?_parallel hc
  have hle := h.guarded_le hm
  have hone := h.one m hm
  -- in between, the slot is held once more than it is counted
  have hrule := C.ruleAt_modifyInstance hm n (fun i => { i with slot })
  have hnames : ((C.modifyInstance n fun i => { i with slot }).guards.map (·.1)).Nodup := h.names
  have hgm : (C.modifyInstance n fun i => { i with slot }).guarded m = C.guarded m := rfl
  have hlen : m < (C.modifyInstance n fun i => { i with slot }).instances.length := by
    simpa [modifyInstance] using hm
  have hguarded : (C.guard n name slot).guarded m
      = ((C.modifyInstance n fun i => { i with slot }).unguard name).guarded m
        + if n = m then 1 else 0 := by
    simp [guarded, Core.guard, List.countP_append, List.countP_singleton]
  have hat : (C.guard n name slot).ruleAt m
      = ((C.modifyInstance n fun i => { i with slot }).unguard name).ruleAt m := rfl
  rw [hguarded, hat]
  by_cases hnm : n = m
  · subst hnm
    rw [if_pos rfl] at hrule
    obtain ⟨h1, h2, h3, h4⟩ := unguard_held hnames name hlen (by rw [hrule, hgm]; dsimp only; omega)
    rw [hrule] at h1 h2 h3 h4
    dsimp only at h1 h2 h3 h4
    rw [hgm] at h1
    refine ⟨by rw [if_pos rfl]; omega, h3.trans hpar, h4, fun hp => ?_⟩
    have := hzero hp
    omega
  · rw [if_neg hnm] at hrule
    obtain ⟨h1, h2, h3, h4⟩ := unguard_held hnames name hlen (by rw [hrule, hgm]; exact hle)
    rw [hrule] at h1 h2 h3 h4
    rw [hgm] at h1
    exact ⟨by rw [if_neg hnm]; exact h1, h3, h4, fun hp => Nat.le_trans h2 (hone hp)⟩

theorem guard (h : C.Counted) {n : Nat} {slot : Slot Nat}
    (hs : (C.instances[n]?).bind (·.slot.claim?) = some slot) (name : String) :
    (C.guard n name slot).Counted := by
  obtain ⟨i, hi, hc⟩ := Option.bind_eq_some_iff.mp hs
  obtain ⟨hn, rfl⟩ := List.getElem?_eq_some_iff.mp hi
  have hin : C.ruleAt n = C.instances[n] := by simp [ruleAt, hn]
  rw [← hin] at hc
  have hlen := guard_length C n name slot
  have hruns := guard_runs C n name slot
  obtain ⟨hsub, hnd⟩ := guard_names h.names n name slot
  refine ⟨?_, ?_, ?_, ?_, ?_, hnd⟩
  · intro m hm
    rw [hlen] at hm
    have h1 := (h.guard_held hc name hm).1
    have hh := h.held m hm
    have hocc : (C.guard n name slot).occupants m = C.occupants m := by rw [occupants, hruns, occupants]
    omega
  · intro m hm
    rw [hlen] at hm
    obtain ⟨-, hp, hd, -⟩ := h.guard_held hc name hm
    rw [hp, hd]
    exact h.parallel m hm
  · intro m hm hp
    rw [hlen] at hm
    obtain ⟨-, hp', -, hone⟩ := h.guard_held hc name hm
    exact hone (hp'.symm.trans hp)
  · intro r hr
    have hx : (C.guard n name slot).runAt r = C.runAt r := by rw [runAt, hruns, runAt]
    rw [hx]
    exact h.claimed r (hruns ▸ hr)
  · intro p hp
    rw [hlen]
    rcases hsub p hp with hp | rfl
    · exact h.guards p hp
    · exact hn

/-! ## All changes -/

/-- A run in flight holds a slot that is held. -/
theorem held_pos (h : C.Counted) (hv : C.Valid) {r : Nat} (hr : r < C.runs.length)
    (hi : (C.runAt r).stage.inFlight = true) : 0 < (C.ruleAt (C.runAt r).rule).slot.held := by
  have hp := occupants_pos hr hi
  have hh := h.held _ (hv.run r hr)
  omega

/-- **Every change keeps the books.** -/
theorem change (h : C.Counted) (hv : C.Valid) (hc : C.Change C') : C'.Counted := by
  cases hc with
  | rest => exact h
  | @turns r hr S ht => exact h.put hv hr (ht.balances (h.claimed r hr) (h.held_pos hv hr))
  | @defers r hr hd =>
    have hp := h.cancelPending (C.scene r).rule.pending
    have hv' := hv.cancelPending (C.scene r).rule.pending
    refine hp.put hv' (r := r) (by simpa using hr) ?_
    rw [C.scene_cancelPending _ hd.stage]
    have hs : (C.scene r).run.stage.inFlight = false := by rw [hd.stage]; rfl
    exact Scene.defer_balances hs (h.claimed r hr)
  | spawns hn t a c => exact h.spawn _ t a c
  | @abandons r hr ha hs =>
    exact h.put hv hr (Scene.abandon_balances (h.claimed r hr) (h.held_pos hv hr))
  | adds d => exact h.addInstance hv d _
  | @defines d hd =>
    unfold define
    split
    · exact (h.addInstance hv d _).retire _ _
    · exact h.addInstance hv d _
  | @deregisters id n hn =>
    have hr : ({ C with registered := C.registered.filter (·.1 != id) } : Core).Counted :=
      h.same rfl (fun _ _ => ⟨rfl, rfl⟩) (fun _ => rfl) h.claimed rfl
    exact hr.retire _ _
  | tweaks ha => exact h.alike ha
  | guards hs name => exact h.guard hs name
  | unguards name => exact h.unguard name
  | listens ls => exact h.same rfl (fun _ _ => ⟨rfl, rfl⟩) (fun _ => rfl) h.claimed rfl

theorem step (h : C.Counted) (hv : C.Valid) (hs : C.Step C') : C'.Counted := by
  cases hs with
  | change hc => exact h.change hv hc
  | forgets => exact h.same rfl (fun _ _ => ⟨rfl, rfl⟩) (fun _ => rfl) h.claimed rfl
  | pass ht ha => exact h.alike ha

end Core.Counted

namespace Engine

theorem Fresh.counted {E : Engine} (h : E.Fresh) : E.core.Counted := by
  obtain ⟨_, _, _, _, _, _, rfl⟩ := h
  exact ⟨fun _ hn => absurd hn (Nat.not_lt_zero _), fun _ hn => absurd hn (Nat.not_lt_zero _),
    fun _ hn => absurd hn (Nat.not_lt_zero _), fun _ hr => absurd hr (Nat.not_lt_zero _),
    fun _ hp => absurd hp List.not_mem_nil, List.nodup_nil⟩

/-- **Slots count those who hold them, in every engine that can come to be.** -/
theorem Reachable.counted {E : Engine} (h : E.Reachable) : E.core.Counted :=
  h.induction (fun _ hf => hf.counted) fun _ _ hv hc hs => hc.step hv hs

end Engine

end ReactiveRules
