import Mathlib.Data.List.Forall2
import ReactiveRules.Proofs.Engine.Course

/-!
# `Proofs/Engine/Change.lean` — what one operation can change

Whatever is done to an engine, by a job in its turn or from outside, comes to at most one of a few
changes of its core. **`Core.Change` lists them**, and for each operation there is a lemma that
names its change. Properties of runs and instances are then proved by cases on `Core.Change`; no
such proof opens an operation.
-/

set_option autoImplicit false

namespace ReactiveRules

/-- The instances differ at most in whether they are paused, and the second can have fewer facts. -/
structure Instance.Alike (i j : Instance) : Prop where
  rest : j = { i with facts := j.facts, paused := j.paused }
  facts : j.facts.records ⊆ i.facts.records

theorem Instance.Alike.refl (i : Instance) : i.Alike i := ⟨rfl, List.Subset.refl _⟩

theorem Instance.Alike.trans {i j k : Instance} (h : i.Alike j) (h' : j.Alike k) : i.Alike k :=
  ⟨by rw [h'.rest, h.rest], List.Subset.trans h'.facts h.facts⟩

namespace Core

def number? (C : Core) (id : String) : Option Nat :=
  (C.registered.find? (·.1 == id)).map (·.2)

def pendingOf (C : Core) (n : Nat) : Option (Nat × Nat) := (C.instances[n]?).bind (·.pending)

def modifyInstance (C : Core) (n : Nat) (f : Instance → Instance) : Core :=
  { C with instances := C.instances.modify n f }

theorem ruleAt_modifyInstance (C : Core) {m : Nat} (hm : m < C.instances.length) (n : Nat)
    (f : Instance → Instance) :
    (C.modifyInstance n f).ruleAt m = if n = m then f (C.ruleAt m) else C.ruleAt m := by
  by_cases hn : n = m
  · subst hn
    simp [modifyInstance, ruleAt, hm]
  · simp [modifyInstance, ruleAt, hn]

/-- An instance is retired; what it had put off is given. -/
def retire (C : Core) (n : Nat) (pending : Option (Nat × Nat)) : Core :=
  (C.modifyInstance n (.mapRule Rule.retire)).cancelPending pending

/-- A new instance is in force for the id of its definition. -/
def enforce (C : Core) (d : Definition) : Core :=
  { C with
    instances := C.instances ++ [Instance.ofDefinition d]
    registered := C.registered.filter (·.1 != d.id) ++ [(d.id, C.instances.length)] }

/-- A definition takes the place of the one with its id. -/
def define (C : Core) (d : Definition) : Core :=
  match C.number? d.id with
  | some old => (C.enforce d).retire old (C.pendingOf old)
  | none => C.enforce d

/-- Nothing is in force for an id any more. -/
def deregister (C : Core) (id : String) (n : Nat) : Core :=
  { C with registered := C.registered.filter (·.1 != id) }.retire n (C.pendingOf n)

/-- A slot that is held by name is given back. -/
def unguard (C : Core) (name : String) : Core :=
  match C.guards.find? (·.1 == name) with
  | some (_, n) =>
    { C.modifyInstance n fun i => { i with slot := i.slot.release.1 } with
      guards := C.guards.filter (·.1 != name) }
  | none => C

/-- A slot is held by name, in place of the one held under that name. -/
def guard (C : Core) (n : Nat) (name : String) (slot : Slot Nat) : Core :=
  let C' := (C.modifyInstance n fun i => { i with slot }).unguard name
  { C' with guards := C'.guards ++ [(name, n)] }

def spawn (C : Core) (rule : Nat) (t : Trigger) (a : Admission) (c : Client) : Core :=
  { C with runs := C.runs ++ [{ rule, trigger := t, admission := a, client := c }] }

end Core

/-- The client of the run goes away. -/
def Scene.abandon (S : Scene) : Scene :=
  { S with
    run := { S.run with stage := .ended .abandoned, claimed := false }
    rule := { S.rule with slot := (S.mapSlot (·.forget S.number)).freed } }

/-- Where a run can stand when its client goes away. -/
def Stage.isSuspended : Stage → Bool
  | .arriving | .waiting | .delayed _ | .acting .. => true
  | _ => false

/-- What one operation can change. -/
inductive Core.Change (C : Core) : Core → Prop
  | rest : Change C C
  | turns {r : Nat} (hr : r < C.runs.length) {S : Scene}
    (ht : Scene.Turn C.now C.listeners (C.scene r) S) : Change C (C.put S)
  | defers {r : Nat} (hr : r < C.runs.length) (hd : Scene.Defers C.now (C.scene r)) :
    Change C ((C.cancelPending (C.scene r).rule.pending).put (((C.scene r).accept C.now).defer C.now))
  | spawns {n : Nat} (hn : n < C.instances.length) (t : Trigger) (a : Admission) (c : Client) :
    Change C (C.spawn n t a c)
  | abandons {r : Nat} (hr : r < C.runs.length) (ha : (C.runAt r).answered = false)
    (hs : (C.runAt r).stage.isSuspended = true) : Change C (C.put (C.scene r).abandon)
  | adds (d : Definition) :
    Change C { C with instances := C.instances ++ [Instance.ofDefinition d] }
  | defines {d : Definition} (hd : d.check = .ok ()) : Change C (C.define d)
  | deregisters {id : String} {n : Nat} (hn : C.number? id = some n) : Change C (C.deregister id n)
  | tweaks {is : List Instance} (ha : List.Forall₂ Instance.Alike C.instances is) :
    Change C { C with instances := is }
  | guards {n : Nat} {slot : Slot Nat} (hs : (C.instances[n]?).bind (·.slot.claim?) = some slot)
    (name : String) : Change C (C.guard n name slot)
  | unguards (name : String) : Change C (C.unguard name)
  | listens (ls : List Listener) : Change C { C with listeners := ls }

/-- A step of a core: a change, the clearing of the history, which comes of nothing else, or the passing
of time. When time passes, crews keep house. -/
inductive Core.Step (C : Core) : Core → Prop
  | change {C' : Core} (h : C.Change C') : Step C C'
  | forgets : Step C { C with history := C.history.clear }
  | pass {t : Nat} (ht : C.now ≤ t) {is : List Instance}
    (ha : List.Forall₂ Instance.Alike C.instances is) : Step C { C with now := t, instances := is }

@[simp] theorem Core.cancelPending_now (C : Core) (p : Option (Nat × Nat)) :
    (C.cancelPending p).now = C.now := by
  cases p <;> rfl

@[simp] theorem Core.unguard_now (C : Core) (name : String) : (C.unguard name).now = C.now := by
  unfold Core.unguard
  split <;> rfl

/-- No change takes time. -/
theorem Core.Change.now {C C' : Core} (h : C.Change C') : C'.now = C.now := by
  cases h with
  | defers hr hd => exact C.cancelPending_now _
  | @defines d hd =>
    unfold Core.define
    split
    · exact Core.cancelPending_now _ _
    · rfl
  | deregisters hn => exact Core.cancelPending_now _ _
  | guards hs name => exact Core.unguard_now _ _
  | unguards name => exact Core.unguard_now _ _
  | _ => rfl

/-- Every number that a core speaks of is that of an instance. -/
structure Core.Valid (C : Core) : Prop where
  run : ∀ r, r < C.runs.length → (C.runAt r).rule < C.instances.length
  registered : ∀ p ∈ C.registered, p.2 < C.instances.length

theorem Core.Valid.number_lt {C : Core} (hv : C.Valid) {id : String} {n : Nat}
    (hn : C.number? id = some n) : n < C.instances.length := by
  unfold Core.number? at hn
  cases hf : C.registered.find? (·.1 == id) with
  | none => simp [hf] at hn
  | some p =>
    have hp : p.2 = n := by simpa [hf] using hn
    exact hp ▸ hv.registered p (List.mem_of_find?_eq_some hf)

namespace Engine

open ReactiveRules.Core (Change)

variable {E E' E₁ : Engine}

/-- What leaves the core alone is no change. -/
theorem change_of_core (hc : E'.core = E.core) : Change E.core E'.core := hc ▸ .rest

/-! ## Runs -/

/-- A turn that has come to a scene has changed the core to show it. -/
theorem At.turns {C : Core} {S : Scene} {r : Nat} (h : E.At C S) (hr : r < C.runs.length)
    (ht : Scene.Turn C.now C.listeners (C.scene r) S) : Change C E.core := by
  rw [h.core]
  exact .turns hr ht

theorem change_performRun (hv : E.core.Valid) (r : Nat) (second : Bool) :
    Change E.core (E.performRun r second).core := by
  by_cases hr : r < E.runs.length
  · have h : E.At E.core (E.core.scene r) := .scene hr (hv.run _ hr)
    rcases h.performRun second with ⟨-, hE⟩ | ⟨S, ht, hE⟩ | ⟨hd, hE⟩
    · exact change_of_core (hE.core.trans (Core.put_scene _ r))
    · exact hE.turns hr ht
    · exact hE.core ▸ .defers hr hd
  · unfold performRun
    rw [List.getElem?_eq_none (by omega)]
    exact .rest

/-- The stage of a run that has got anywhere tells that there is the run. -/
theorem lt_of_stage {r : Nat} (hs : (E.runAt r).stage ≠ .arriving) : r < E.runs.length := by
  by_contra hr
  apply hs
  simp [runAt, List.getElem?_eq_none (Nat.le_of_not_lt hr)]
  rfl

theorem lt_of_delayed {r due : Nat} (hd : (E.runAt r).stage = .delayed due) :
    r < E.runs.length := by
  apply lt_of_stage
  rw [hd]
  exact Stage.noConfusion

theorem change_concludeScript (hv : E.core.Valid) (e : Nat)
    (result : Except String (Except Script.Fault Script.Value)) :
    Change E.core (E.concludeScript e result).core := by
  have hat : ∀ {r : Nat}, ((E.setEvaluation e .ended).runAt r).stage ≠ .arriving →
      r < E.core.runs.length ∧ (E.setEvaluation e .ended).At E.core (E.core.scene r) := by
    intro r hs
    have hr := lt_of_stage hs
    exact ⟨hr, .scene hr (hv.run _ hr)⟩
  -- the run goes on only if it is this evaluation that it is judged or acts in
  unfold concludeScript
  dsimp only
  split
  · next e' hs =>
    obtain ⟨hr, h⟩ := hat (r := (E.evaluationAt e).run) (by rw [hs]; exact Stage.noConfusion)
    have hs' : (E.core.scene (E.evaluationAt e).run).run.stage = .judging e' := hs
    split
    · cases result with
      | error m => exact (h.breakOff m).turns hr (.broke hs' m)
      | ok v =>
        obtain ⟨S, hd, hE⟩ := h.decideOn (conditionTruth _ _ v)
        exact hE.turns hr (.decides hs' hd)
    · exact .rest
  · next e' d hs =>
    obtain ⟨hr, h⟩ := hat (r := (E.evaluationAt e).run) (by rw [hs]; exact Stage.noConfusion)
    have hs' : (E.core.scene (E.evaluationAt e).run).run.stage = .acting e' d := hs
    split
    · cases result with
      | error m => exact (h.conclude _).turns hr (.concludes hs' _)
      | ok v => exact (h.conclude _).turns hr (.concludes hs' _)
    · exact .rest
  · exact .rest

/-! ## Rules -/

theorem core_signalRetirement (E : Engine) (n : Nat) (p : Option (Nat × Nat)) :
    (E.signalRetirement n p).core = E.core.cancelPending p := by
  have hw : ∀ rs : List Nat, (rs.foldl (fun E r => E.wake (.run r)) E).core = E.core :=
    fun rs => core_foldl (fun E _ => core_wake E _) rs E
  unfold signalRetirement
  cases p with
  | none => exact hw _
  | some p => exact (core_cancelDeferral _ _).trans (congrArg (Core.cancelDeferral · p.2) (hw _))

theorem change_define (E : Engine) (d : Definition) : Change E.core (E.define d).1.core := by
  unfold define Registry.register
  cases hd : d.check with
  | error e => exact .rest
  | ok u =>
    have hdef : Change E.core (E.core.define d) := .defines hd
    dsimp only [Registry.add]
    cases hn : E.registry.number? d.id with
    | none =>
      have hn' : E.core.number? d.id = none := hn
      simp only [Core.define, hn'] at hdef
      dsimp only
      rw [core_notice]
      exact hdef
    | some old =>
      have hn' : E.core.number? d.id = some old := hn
      simp only [Core.define, hn'] at hdef
      dsimp only
      rw [core_notice, core_signalRetirement]
      exact hdef

theorem change_deregister (E : Engine) (id : String) :
    Change E.core (E.deregister id).1.core := by
  unfold deregister Registry.deregister
  cases hn : E.registry.number? id with
  | none => exact .rest
  | some n =>
    have hd : Change E.core (E.core.deregister id n) := .deregisters hn
    dsimp only [Registry.retire, Registry.modify]
    cases hh : E.registry.host with
    | none =>
      dsimp only
      rw [core_notice, core_signalRetirement]
      exact hd
    | some g =>
      dsimp only
      rw [core_notice, core_signalRetirement]
      exact hd

theorem change_observe (E : Engine) (node id : String) :
    Change E.core (E.observe node id).1.core := by
  apply change_of_core
  unfold observe Registry.observe
  split
  · next r' e he =>
    split at he
    · rfl
    · split at he
      · cases he
        rfl
      · cases he
  · next r' he =>
    rw [core_notice]
    split at he
    · cases he
    · split at he
      · cases he
      · cases he
        rfl

end Engine

/-- Changing an instance in its facts or in whether it is paused. -/
theorem alike_modify {is : List Instance} {n : Nat} {f : Instance → Instance}
    (hf : ∀ i : Instance, i.Alike (f i)) : List.Forall₂ Instance.Alike is (is.modify n f) := by
  rw [List.forall₂_iff_get]
  refine ⟨by simp, ?_⟩
  intro m hm hm'
  by_cases hn : n = m
  · subst hn
    simpa [List.getElem_modify] using hf _
  · simpa [List.getElem_modify, hn] using Instance.Alike.refl _

theorem alike_refl (is : List Instance) : List.Forall₂ Instance.Alike is is :=
  List.forall₂_same.mpr fun i _ => Instance.Alike.refl i

theorem alike_getD {is js : List Instance} (h : List.Forall₂ Instance.Alike is js) (n : Nat) :
    (is.getD n default).Alike (js.getD n default) := by
  have hlen := h.length_eq
  by_cases hn : n < is.length
  · have hi := (List.forall₂_iff_get.mp h).2 n hn (hlen ▸ hn)
    simpa [List.getD_eq_getElem?_getD, hn, hlen ▸ hn] using hi
  · simp only [List.getD_eq_getElem?_getD]
    rw [List.getElem?_eq_none (by omega), List.getElem?_eq_none (by omega)]
    exact .refl _

theorem alike_trans {is js ks : List Instance} (h : List.Forall₂ Instance.Alike is js)
    (h' : List.Forall₂ Instance.Alike js ks) : List.Forall₂ Instance.Alike is ks := by
  induction h generalizing ks with
  | nil => exact h'
  | cons hi _ ih =>
    cases h' with
    | cons hj ht => exact .cons (hi.trans hj) (ih ht)

namespace Engine

open ReactiveRules.Core (Change)

variable {E E' : Engine}

theorem change_setPaused (E : Engine) (id : String) (paused : Bool) :
    Change E.core (E.setPaused id paused).1.core := by
  unfold setPaused
  split
  · exact .rest
  · rw [core_notice]
    exact .tweaks (alike_modify fun _ => ⟨rfl, List.Subset.refl _⟩)

theorem change_dispatch (E : Engine) (t : Trigger) : Change E.core (E.dispatch t).1.core := by
  apply change_of_core
  unfold dispatch
  split
  · rfl
  · dsimp only
    split
    · rw [core_notice, core_notice]
    · rw [core_wakeWorkers]
      rfl

theorem alike_sweep (r : Registry) (now : Nat) :
    (r.sweep now).registered = r.registered ∧
      List.Forall₂ Instance.Alike r.instances (r.sweep now).instances := by
  have hi : ∀ i : Instance, i.Alike (i.mapRule (·.sweep now)) :=
    fun _ => ⟨rfl, List.filter_subset_self _⟩
  have hs : ∀ (ps : List (String × Nat)) (r : Registry),
      (ps.foldl (fun r p => r.modify p.2 (.mapRule (·.sweep now))) r).registered = r.registered ∧
        List.Forall₂ Instance.Alike r.instances
          (ps.foldl (fun r p => r.modify p.2 (.mapRule (·.sweep now))) r).instances := by
    intro ps
    induction ps with
    | nil => intro r; exact ⟨rfl, alike_refl _⟩
    | cons p rest ih =>
      intro r
      obtain ⟨hr, ha⟩ := ih (r.modify p.2 (.mapRule (·.sweep now)))
      exact ⟨hr, alike_trans (alike_modify hi) ha⟩
  exact hs r.registered r

/-- An engine whose core differs at most in the facts of its instances. -/
def Sweeps (E E' : Engine) : Prop :=
  ∃ is, List.Forall₂ Instance.Alike E.core.instances is ∧
    E'.core = { E.core with instances := is }

theorem Sweeps.trans {E E₁ E' : Engine} (h : E.Sweeps E₁) (h' : E₁.Sweeps E') : E.Sweeps E' := by
  obtain ⟨is, ha, hc⟩ := h
  obtain ⟨js, hb, hc'⟩ := h'
  rw [hc] at hb
  exact ⟨js, alike_trans ha hb, by rw [hc', hc]⟩

theorem sweeps_of_core (hc : E'.core = E.core) : E.Sweeps E' := ⟨_, alike_refl _, hc⟩

theorem sweeps_sweep (E : Engine) : E.Sweeps E.sweep.1 := by
  obtain ⟨hr, ha⟩ := alike_sweep E.registry E.now
  refine ⟨_, ha, ?_⟩
  simp only [core, sweep, hr]

theorem sweeps_tickCrew (E : Engine) (c : Nat) : E.Sweeps (E.tickCrew c) := by
  have hk : E.Sweeps E.keepHouse := by
    refine (sweeps_sweep E).trans (sweeps_of_core ?_)
    unfold keepHouse
    dsimp only
    split
    · exact core_notice _ _
    · rfl
  unfold tickCrew
  split
  · exact hk.trans (sweeps_of_core rfl)
  · exact sweeps_of_core rfl

/-- The crews keep house, one after another. -/
theorem sweeps_foldl_tickCrew : ∀ (cs : List Nat) (E : Engine), E.Sweeps (cs.foldl tickCrew E) := by
  intro cs
  induction cs with
  | nil => intro E; exact sweeps_of_core rfl
  | cons c rest ih => intro E; exact (sweeps_tickCrew E c).trans (ih _)

theorem Sweeps.runs (h : E.Sweeps E') : E'.runs = E.runs := by
  obtain ⟨is, -, hc⟩ := h
  exact congrArg Core.runs hc

theorem Sweeps.now (h : E.Sweeps E') : E'.now = E.now := by
  obtain ⟨is, -, hc⟩ := h
  exact congrArg Core.now hc

theorem Sweeps.history (h : E.Sweeps E') : E'.history = E.history := by
  obtain ⟨is, -, hc⟩ := h
  exact congrArg Core.history hc

theorem step_strike (E : Engine) {t : Nat} (ht : E.now ≤ t) :
    E.core.Step (E.strike t).core := by
  unfold strike
  dsimp only
  rw [core_foldl (fun E _ => core_wake E _)]
  obtain ⟨is, ha, hc⟩ := sweeps_foldl_tickCrew (List.range { E with now := t }.crews.length)
    { E with now := t }
  rw [hc]
  exact .pass ht ha

theorem now_strike (E : Engine) (t : Nat) : (E.strike t).now = t :=
  (congrArg Core.now (core_foldl (fun E r => core_wake E (.run r)) _ _)).trans
    (sweeps_foldl_tickCrew _ _).now

theorem runs_strike (E : Engine) (t : Nat) : (E.strike t).runs = E.runs :=
  (congrArg Core.runs (core_foldl (fun E r => core_wake E (.run r)) _ _)).trans
    (sweeps_foldl_tickCrew _ _).runs

theorem history_strike (E : Engine) (t : Nat) : (E.strike t).history = E.history :=
  (congrArg Core.history (core_foldl (fun E r => core_wake E (.run r)) _ _)).trans
    (sweeps_foldl_tickCrew _ _).history

/-! ## Workers and writers -/

theorem change_spawn (E : Engine) {n : Nat} (hn : n < E.core.instances.length) (t : Trigger)
    (a : Admission) (c : Client) : Change E.core (E.spawn n t a c).1.core := .spawns hn t a c

theorem change_assign (hv : E.core.Valid) (c w : Nat) (t : Trigger) :
    Change E.core (E.assign c w t).core := by
  unfold assign
  split
  · exact change_of_core (by rw [core_goOn, core_setWorker, core_notice])
  · next n hn => exact change_spawn E (hv.number_lt hn) _ _ _

theorem change_served (hv : E.core.Valid) (c w : Nat)
    (r : DispatchQueue Trigger (Nat × Nat) × Option Trigger) :
    Change E.core (E.served c w r).core := by
  have hq : { E with queue := r.1 }.core = E.core := rfl
  unfold served
  dsimp only
  split
  · exact hq ▸ change_assign (hq ▸ hv) c w _
  · exact .rest

theorem core_stopWorker (E : Engine) (c w : Nat) : (E.stopWorker c w).core = E.core := by
  unfold stopWorker wakeStops
  rw [core_foldl (fun E _ => core_wake E _), core_notice, core_setWorker]

theorem core_leave (E : Engine) (c w : Nat) : (E.leave c w).core = E.core := by
  unfold leave
  rw [core_stopWorker, core_wakeWorkers]
  rfl

theorem change_performWorker (hv : E.core.Valid) (c w : Nat) (second : Bool) :
    Change E.core (E.performWorker c w second).core := by
  unfold performWorker
  dsimp only
  split
  · split
    · exact change_of_core (core_stopWorker E c w)
    · exact change_served hv c w _
  · split
    · split
      · rw [core_leave]
        exact change_served hv c w _
      · exact change_served hv c w _
    · split
      · exact change_of_core (core_leave E c w)
      · exact .rest
  · exact .rest

theorem change_performStop (E : Engine) (k : Nat) : Change E.core (E.performStop k).core := by
  apply change_of_core
  unfold performStop
  split
  · rfl
  · split
    · rfl
    · rw [core_finishTask, core_notice]
      rfl

theorem change_performWrite (hv : E.core.Valid) (k : Nat) :
    Change E.core (E.performWrite k).core := by
  unfold performWrite
  split
  · exact .rest
  · split
    · exact .rest
    · dsimp only
      split
      · exact change_of_core (by rw [core_goOn, core_notice]; rfl)
      · next n hn => exact .spawns (hv.number_lt hn) _ _ _

/-! ## Scripts -/

section Scripts

open Script (Process Reply Fault Value)

variable (E)

theorem core_resumeScript (e : Nat) (p : Process (Except Fault Value)) :
    (E.resumeScript e p).core = E.core := rfl

theorem core_answerScript (e : Nat) (cancels : Bool) (a : Except String Json)
    (next : Reply → Process (Except Fault Value)) :
    (E.answerScript e cancels a next).core = E.core := rfl

theorem core_pass (e : Nat) (command : String) (next : Reply → Process (Except Fault Value)) :
    (E.pass e command next).core = E.core := by
  unfold pass
  rw [core_resumeScript, core_say_of_none E rfl]

theorem core_reachGate (e : Nat) (command gate : String)
    (next : Reply → Process (Except Fault Value)) :
    (E.reachGate e command gate next).core = E.core := by
  unfold reachGate
  split
  · rw [core_pass]
    rfl
  · rfl

theorem core_openGate (gate : String) : (E.openGate gate).core = E.core := by
  unfold openGate
  split
  · rfl
  · split
    · exact core_pass E _ _ _
    · rfl

variable {E}

theorem change_obey (E : Engine) (node : String) (o : Order) :
    Change E.core (E.obey node o).1.core := by
  cases o with
  | deregister rule => exact change_deregister E rule
  | pause rule => exact change_setPaused E rule true
  | resume rule => exact change_setPaused E rule false
  | register rule condition action => exact change_define E _
  | dispatch rule name value => exact change_dispatch E _
  | cancel => exact .rest
  | unknown word => exact .rest

theorem change_fire (hv : E.core.Valid) (e : Nat) (t : Trigger)
    (next : Reply → Process (Except Fault Value)) : Change E.core (E.fire e t next).core := by
  unfold fire
  split
  · exact .rest
  · next n hn => exact .spawns (hv.number_lt hn) _ _ _

theorem change_invoke (hv : E.core.Valid) (e : Nat) (command : String) (args : List Json)
    (next : Reply → Process (Except Fault Value)) :
    Change E.core (E.invoke e command args next).core := by
  unfold invoke
  dsimp only
  split
  · exact .rest
  · next commands device calls hc =>
    -- whatever the command is, its call is noted first, which leaves the core alone
    generalize hE : Engine.say _ _ = E₁
    have hcore : E₁.core = E.core := by
      rw [← hE, core_say_of_none _ rfl]
      rfl
    rw [← hcore] at hv ⊢
    cases device with
    | plain c =>
      dsimp only
      split
      · exact .rest
      · exact change_concludeScript hv e _
    | gate => exact change_of_core (core_reachGate E₁ _ _ _ _)
    | fire => exact change_fire hv e _ next
    | order =>
      dsimp only
      rw [core_answerScript]
      exact change_obey E₁ _ _

theorem change_performScript (hv : E.core.Valid) (e : Nat) :
    Change E.core (E.performScript e).core := by
  unfold performScript
  dsimp only
  split
  · exact change_concludeScript hv e _
  · exact change_concludeScript hv e _
  · exact change_of_core (by rw [core_resumeScript, core_say_of_none _ rfl])
  · split
    · exact .rest
    · exact change_invoke hv e _ _ _
  · exact .rest

end Scripts

/-! ## Turns -/

theorem change_perform (hv : E.core.Valid) (j : Job) (second : Bool) :
    Change E.core (E.perform j second).core := by
  cases j with
  | run r => exact change_performRun hv r second
  | script e => exact change_performScript hv e
  | write k => exact change_performWrite hv k
  | worker c w => exact change_performWorker hv c w second
  | stop k => exact change_performStop E k

/-- **A turn of any job comes to one change.** -/
theorem change_turn (hv : E.core.Valid) (j : Job) (second : Bool) :
    Change E.core (E.turn j second).core := by
  unfold turn
  split
  · exact change_perform (E := { E with ready := E.ready.erase j }) hv j second
  · exact .rest

/-! ## From outside -/

theorem change_notify (E : Engine) {n : Nat} (hn : n < E.core.instances.length) (t : Trigger)
    (a : Admission) : Change E.core (E.notify n t a).1.core := by
  unfold notify
  dsimp only
  rw [core_wake]
  exact .spawns hn _ _ _

theorem change_write (E : Engine) (a : Aspect) (node name : String) (value : Json) :
    Change E.core (E.write a node name value).1.core := by
  apply change_of_core
  unfold write
  dsimp only
  split
  · exact (core_wake _ _).trans rfl
  · exact (core_wake _ _).trans rfl

theorem core_stopWork (E : Engine) : E.stopWork.1.core = E.core := by
  have hd : ∀ (E : Engine) (c : Nat), (E.dismiss c).core = E.core := by
    intro E c
    unfold dismiss
    rw [core_foldl (fun E _ => core_wake E _)]
    rfl
  unfold stopWork
  dsimp only
  split
  · rfl
  · rw [core_wake, hd]
    rfl

theorem core_startWork (E : Engine) : E.startWork.1.core = E.core := by
  unfold startWork hire
  split
  · rfl
  · dsimp only
    rw [core_foldl (fun E _ => core_wake E _), core_notice]
    rfl

/-- The run that is given up is the first that goes on for the client. -/
theorem core_abandonRunOf (hv : E.core.Valid) {c : Client} {r : Nat}
    (hf : E.runs.findIdx? (isSuspended · c) = some r) :
    r < E.runs.length ∧ isSuspended (E.runAt r) c = true ∧
      (E.abandonRunOf c).core = E.core.put (E.core.scene r).abandon := by
  obtain ⟨hr, hs, -⟩ := List.findIdx?_eq_some_iff_getElem.mp hf
  have hx : E.runAt r = E.runs[r] := by simp [runAt, hr]
  have h : E.At E.core (E.core.scene r) := .scene hr (hv.run _ hr)
  -- it leaves the list first, so that it does not wake itself
  have hE := ((h.modifySlot (·.forget r)).setStage (.ended .abandoned)).free
  refine ⟨hr, hx ▸ hs, ?_⟩
  unfold abandonRunOf
  rw [hf]
  exact hE.core

theorem change_abandonRunOf (hv : E.core.Valid) (c : Client) :
    Change E.core (E.abandonRunOf c).core := by
  cases hf : E.runs.findIdx? (isSuspended · c) with
  | none =>
    unfold abandonRunOf
    rw [hf]
    exact .rest
  | some r =>
    obtain ⟨hr, hs, hE⟩ := core_abandonRunOf hv hf
    simp only [isSuspended, Bool.and_eq_true, Bool.not_eq_true'] at hs
    obtain ⟨⟨-, ha⟩, hs⟩ := hs
    have hst : (E.core.runAt r).stage.isSuspended = true := by
      revert hs
      cases h : (E.runAt r).stage <;> simp [Stage.isSuspended, h]
    exact hE ▸ .abandons hr ha hst

theorem core_unguard (E : Engine) (name : String) :
    (E.unguard name).1.core = E.core.unguard name := by
  have hg : E.core.guards = E.guards := rfl
  unfold unguard Core.unguard
  rw [hg]
  cases hf : E.guards.find? (·.1 == name) with
  | none => rfl
  | some p =>
    dsimp only
    rw [core_foldl (fun E _ => core_wake E _)]
    -- the engine has looked the slot up before, the core does so where it changes it
    have hm : E.core.instances.modify p.2
        (fun i => { i with slot := (E.registry.instances.getD p.2 default).slot.release.1 })
        = E.core.instances.modify p.2 fun i => { i with slot := i.slot.release.1 } :=
      Core.modify_congr fun i hi => by
        have hi' : E.registry.instances[p.2]? = some i := hi
        simp [List.getD_eq_getElem?_getD, hi']
    simp only [Core.modifyInstance, ← hm]
    rfl

theorem change_guard (E : Engine) (n : Nat) (name : String) :
    Change E.core (E.guard n name).1.core := by
  unfold guard
  split
  · exact .rest
  · next slot hs =>
    -- the new slot is claimed before the old one is given back
    have hg : Change E.core (E.core.guard n name slot) := .guards hs name
    have hu := core_unguard (E.modifyInstance n fun i => { i with slot }) name
    have hm : (E.modifyInstance n fun i => { i with slot }).core
        = E.core.modifyInstance n fun i => { i with slot } := rfl
    rw [hm] at hu
    unfold Core.guard at hg
    rw [← hu] at hg
    exact hg

end Engine

end ReactiveRules
