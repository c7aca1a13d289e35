import ReactiveRules.Proofs.Engine.Housekeeping
import ReactiveRules.Proofs.Engine.Slots
import ReactiveRules.Proofs.Engine.Supersession

/-!
# `Proofs/Ways/Clear.lean` — runs that have the slot to themselves

A run that arrives while nobody holds the slot of its instance may have its evaluation put off, and
come to the slot much later. As long as nobody else notifies the instance it finds the slot open
then (`Clear.isOpen`): what had been put off before is cancelled when its own evaluation is put off,
and hears of that before any time passes. **Whatever else the engine is made to do meanwhile, the way
stays clear** (`Clear.moved`).
-/

set_option autoImplicit false

namespace ReactiveRules

/-- Is the request about rules, and notifies nobody? -/
def Request.isManaging : Request → Bool
  | .define _ | .deregister _ | .setPaused .. => true
  | _ => false

namespace Engine

/-- Does time pass? -/
def Move.takesTime : Move → Bool
  | .strike _ | .pass _ => true
  | _ => false

/-- If the move is a request, is it about rules? -/
def Move.isManaging : Move → Bool
  | .request q => q.isManaging
  | _ => true

/-- A move by which nobody notifies the instance `n`: a turn, the passing of time when nobody can take a
turn, or a request about rules. -/
structure LetsBe (E : Engine) (n : Nat) (m : Move) : Prop where
  patient : m.takesTime = true → E.ready = []
  managing : m.isManaging = true
  /-- No run of the instance begins. -/
  runs : ∀ r < (E.moved true m).runs.length, E.runs.length ≤ r → ((E.moved true m).runAt r).rule ≠ n
  /-- Nothing is queued. -/
  queue : (E.moved true m).queue.nextOrder = E.queue.nextOrder

instance (E : Engine) (n : Nat) (m : Move) : Decidable (E.LetsBe n m) :=
  decidable_of_iff ((m.takesTime = true → E.ready = []) ∧ m.isManaging = true ∧
      (∀ r < (E.moved true m).runs.length, E.runs.length ≤ r →
        ((E.moved true m).runAt r).rule ≠ n) ∧
      (E.moved true m).queue.nextOrder = E.queue.nextOrder)
    ⟨fun ⟨hp, hm, hr, hq⟩ => ⟨hp, hm, hr, hq⟩, fun ⟨hp, hm, hr, hq⟩ => ⟨hp, hm, hr, hq⟩⟩

/-- The run is over, or its evaluation is put off until later. -/
def StandsBy (E : Engine) (m : Nat) : Prop :=
  (E.runAt m).isOver = true ∨ ∃ g due c, (E.runAt m).stage = .deferred g due c ∧ E.now < due

/-- Nobody holds the slot of the instance, and no run but the one given is about to claim it. -/
structure Unclaimed (E : Engine) (n r : Nat) : Prop where
  guards : E.core.guarded n = 0
  others : ∀ m, m < E.runs.length → m ≠ r → (E.runAt m).rule = n → E.StandsBy m

/-- If the run has yet to come to the slot, it will find it open. -/
structure Clear (E : Engine) (r : Nat) : Prop where
  lt : r < E.runs.length
  ready : (E.runAt r).stage = .arriving → Job.run r ∈ E.ready
  slot : (E.runAt r).isComing →
    (E.ruleOf r).slot.parallel = true ∨ E.Unclaimed (E.runAt r).rule r

variable {E E' : Engine} {n r : Nat} {m : Move}

theorem LetsBe.admits {q : Request} (h : E.LetsBe n (.request q)) : E.Admits q := by
  have hq : q.isManaging = true := h.managing
  cases q with
  | notify n t a => cases hq
  | _ => trivial

theorem LetsBe.step (h : E.LetsBe n m) : Step E (E.moved true m) := by
  cases m with
  | turn j second => exact .turn j second
  | strike ms =>
    show Step E (E.strikeWith true (E.now + ms))
    rw [strikeWith_true]
    exact .strike (Nat.le_add_right _ _)
  | pass ms => exact .pass (Nat.le_add_right _ _)
  | request q => exact .request h.admits

/-- A run that has yet to come to the slot does not hold it. -/
theorem not_inFlight_of_isComing {x : Run} (h : x.isComing) : x.stage.inFlight = false := by
  unfold Run.isComing at h
  split at h <;> first | contradiction | simp_all [Stage.inFlight]

/-- A run that has yet to come to the slot has not been there before. -/
theorem isComing_of_rank_le {x y : Run} (h : x.stage.rank ≤ y.stage.rank) (hc : y.isComing) :
    x.isComing := by
  unfold Run.isComing at hc ⊢
  revert hc
  cases hy : y.stage <;> cases hx : x.stage <;> simp_all [Stage.rank]

theorem StandsBy.not_inFlight {k : Nat} (h : E.StandsBy k) : (E.runAt k).stage.inFlight = false := by
  rcases h with ho | ⟨g, due, c, hs, -⟩
  · unfold Run.isOver at ho
    split at ho
    · next e hs => rw [hs]; rfl
    · cases ho
  · rw [hs]
    rfl

theorem Clear.isOpen (hE : E.Reachable) (h : E.Clear r) (hc : (E.runAt r).isComing) :
    (E.ruleOf r).slot.isOpen = true := by
  rcases h.slot hc with hp | hu
  · simp [Slot.isOpen, hp]
  · have hocc : E.core.occupants (E.runAt r).rule = 0 := by
      refine List.countP_eq_zero.mpr fun x hx => ?_
      obtain ⟨k, hk, rfl⟩ := List.getElem_of_mem hx
      have hxk : E.core.runs[k] = E.runAt k := by simp [runAt, show k < E.runs.length from hk]
      rw [hxk]
      by_cases hkr : k = r
      · subst hkr
        simp [Core.occupies, not_inFlight_of_isComing hc]
      · by_cases hn : (E.runAt k).rule = (E.runAt r).rule
        · simp [Core.occupies, (hu.others k hk hkr hn).not_inFlight]
        · simp [Core.occupies, hn]
    have hheld := hE.counted.held _ (hE.valid.run r h.lt)
    have hzero : (E.ruleOf r).slot.held = 0 := by
      show (E.core.ruleAt (E.runAt r).rule).slot.held = 0
      rw [show (E.core.runAt r).rule = (E.runAt r).rule from rfl, hocc, hu.guards] at hheld
      exact hheld
    simp [Slot.isOpen, hzero]

/-! ## What moves leave of it -/

/-- A run that has been looked at is not arriving any more. -/
theorem not_arriving_turn (hv : E.core.Valid) (hr : r < E.runs.length) (hready : Job.run r ∈ E.ready)
    (second : Bool) : ((E.turn (.run r) second).runAt r).stage ≠ .arriving := by
  intro harr
  have hsame : (E.turn (.run r) second).runAt r = E.runAt r :=
    ((Step.turn (E := E) (.run r) second).core hv).run_of_arriving hr harr
  have hs : (E.runAt r).stage = .arriving := hsame ▸ harr
  let X : Engine := { E with ready := E.ready.erase (.run r) }
  have hx : X.runs[r]? = some (X.runAt r) := by
    show E.runs[r]? = some (E.runAt r)
    simp [runAt, hr]
  have hturn : E.turn (.run r) second = X.arrive r := by
    unfold turn
    rw [if_pos (List.contains_iff_mem.mpr hready)]
    show X.performRun r second = X.arrive r
    unfold performRun
    rw [hx]
    dsimp only
    rw [show (X.runAt r).stage = .arriving from hs]
  have h : X.At E.core (E.core.scene r) := .scene (E := X) hr (hv.run _ hr)
  rw [hturn] at harr
  rcases h.arrive hs with ⟨S, ht, hX⟩ | ⟨-, hX⟩
  · have hnum : S.number = r := ht.follows.number
    have hrun : (X.arrive r).runAt r = S.run := hnum ▸ hX.runAt
    have hrank := ht.rank
    rw [← hrun, harr] at hrank
    cases hrank
  · have hrun : (X.arrive r).runAt r = (((E.core.scene r).accept E.core.now).defer E.core.now).run :=
      hX.runAt
    rw [hrun] at harr
    cases harr

/-- As long as no time passes, a run that stands by goes on to. -/
theorem StandsBy.step (hE : E.Reachable) (hs : Step E E') (hnow : E'.now = E.now) {k : Nat}
    (h : E.StandsBy k) : E'.StandsBy k := by
  rcases h with ho | ⟨g, due, c, hstage, hdue⟩
  · by_cases hk : k < E.runs.length
    · left
      have hsame := (hs.core hE.valid).run_over hk ho
      rw [show E'.runAt k = E.runAt k from hsame]
      exact ho
    · rw [runAt, List.getD_eq_getElem?_getD, List.getElem?_eq_none (Nat.le_of_not_lt hk)] at ho
      cases ho
  · have hlead := (hs.core hE.valid).leadsTo k
    rw [core_runAt, core_runAt, hstage] at hlead
    generalize hstage' : (E'.runAt k).stage = s at hlead
    cases hlead with
    | same => exact .inr ⟨g, due, c, hstage', hnow ▸ hdue⟩
    | cancelled => exact .inr ⟨g, due, true, hstage', hnow ▸ hdue⟩
    | further hrank =>
      have hnot : ¬ E'.IsPutOff k := by
        rintro ⟨g', due', c', hs'⟩
        rw [← hstage', hs'] at hrank
        exact absurd hrank (Nat.lt_irrefl 1)
      cases hcan : (E'.runAt k).stage.isCancelled with
      | true =>
        left
        unfold Stage.isCancelled at hcan
        split at hcan
        · next hend => simp [Run.isOver, hend]
        · cases hcan
      | false =>
        -- its evaluation cannot have taken place, since it is not due
        obtain ⟨x, S, hx, hle, -⟩ := hE.claims_of_fires hs ⟨⟨g, due, c, hstage⟩, hnot, hcan⟩
        have hx' : some x = some (⟨(E.runAt k).rule, g, due, c⟩ : Deferral) :=
          hx.symm.trans (Run.deferral_of_stage hstage)
        obtain rfl := Option.some.inj hx'
        exact absurd hle (Nat.not_le.mpr hdue)

namespace Clear

/-- While nobody can take a turn, a run that has yet to come to the slot is the only one of its
instance that is not over. -/
theorem over_of_quiet (hE : E.Reachable) (h : E.Clear r) (hready : E.ready = []) (hc : (E.runAt r).isComing)
    (hu : E.Unclaimed (E.runAt r).rule r) {k : Nat} (hk : k < E.runs.length) (hkr : k ≠ r)
    (hn : (E.runAt k).rule = (E.runAt r).rule) : (E.runAt k).isOver = true := by
  -- nobody is put off without the run being ready but for those that have not been cancelled
  have hlive : ∀ {m g due : Nat} {c : Bool}, (E.runAt m).stage = .deferred g due c → c = false := by
    intro m g due c hs
    cases c with
    | false => rfl
    | true =>
      have hmem := hE.awake.revoked m (by rw [Revoked, hs]; rfl)
      rw [hready] at hmem
      cases hmem
  rcases hu.others k hk hkr hn with ho | ⟨g, due, c, hs, -⟩
  · exact ho
  · obtain rfl := hlive hs
    have hput : ∃ g due c, (E.runAt r).stage = .deferred g due c := by
      unfold Run.isComing at hc
      split at hc
      · next harr =>
        have hmem := h.ready harr
        rw [hready] at hmem
        cases hmem
      · next g due c hs => exact ⟨g, due, c, hs⟩
      · exact hc.elim
    obtain ⟨g', due', c', hs'⟩ := hput
    obtain rfl := hlive hs'
    have hk' : E.core.agenda.deferral k = some ⟨(E.runAt r).rule, g, due, false⟩ :=
      hn ▸ Run.deferral_of_stage hs
    exact absurd (hE.agenda_sound.alive_unique hk' (Run.deferral_of_stage hs')) hkr

/-- **Whatever the engine is made to do but notify the instance, the way stays clear.** -/
theorem moved (hE : E.Reachable) (h : E.Clear r) (hm : E.LetsBe (E.runAt r).rule m)
    (hg : (E.moved true m).guards = E.guards) : (E.moved true m).Clear r := by
  have hstep := hm.step
  have hcore := hstep.core hE.valid
  have hf := hcore.follows hE.valid
  have hrule : ∀ {k}, k < E.runs.length → ((E.moved true m).runAt k).rule = (E.runAt k).rule :=
    fun hk => (hf.run _ hk).rule
  have hcoming : ((E.moved true m).runAt r).isComing → (E.runAt r).isComing :=
    isComing_of_rank_le (hcore.leadsTo r).rank_le
  refine ⟨Nat.lt_of_lt_of_le h.lt hf.runs, fun harr => ?_, fun hc => ?_⟩
  · have hsame : (E.moved true m).runAt r = E.runAt r := hcore.run_of_arriving h.lt harr
    have hready := h.ready (hsame ▸ harr)
    have hwaits : m.takesTime = true → False := fun ht => by
      rw [hm.patient ht] at hready
      cases hready
    cases m with
    | turn j second =>
      refine ready_turn j second hready ?_
      rintro rfl
      exact not_arriving_turn hE.valid h.lt hready second harr
    | strike ms => exact (hwaits rfl).elim
    | pass ms => exact (hwaits rfl).elim
    | request q => exact (rouses_serve E q).ready r hready
  · rcases h.slot (hcoming hc) with hp | hu
    · left
      have hpar := (hf.rule _ (hE.valid.run r h.lt)).parallel
      show ((E.moved true m).core.ruleAt ((E.moved true m).runAt r).rule).slot.parallel = true
      rw [hrule h.lt]
      exact hpar.trans hp
    · refine .inr ⟨?_, fun k hk hkr hn => ?_⟩
      · rw [hrule h.lt, ← hu.guards]
        show (E.moved true m).guards.countP _ = _
        rw [hg]
        rfl
      · rw [hrule h.lt] at hn
        have hk' : k < E.runs.length := by
          by_contra hlt
          exact hm.runs k hk (Nat.le_of_not_lt hlt) hn
        rw [hrule hk'] at hn
        cases ht : m.takesTime with
        | true =>
          have hover := over_of_quiet hE h (hm.patient ht) (hcoming hc) hu hk' hkr hn
          left
          rw [show (E.moved true m).runAt k = E.runAt k from hcore.run_over hk' hover]
          exact hover
        | false =>
          refine (hu.others k hk' hkr hn).step hE hstep ?_
          cases m with
          | turn j second => exact (change_turn hE.valid j second).now
          | request q => exact now_serve hE.valid hm.admits
          | _ => cases ht

end Clear

end Engine

end ReactiveRules
