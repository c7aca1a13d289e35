import Mathlib.Logic.Relation
import ReactiveRules.Proofs.Engine.Follow

/-!
# `Proofs/Engine/Reach.lean` — the states an engine can come to

An engine is used by requests from outside; between them, jobs take turns in any order and time
passes. `Step` is one of these, and an engine is `Reachable` if steps lead to it from one at which
nothing has happened. Everything an engine does on its own is steps: `settle` gives turns, and
`advance` lets time pass from timer to timer, so what holds of all reachable engines holds whatever
is done with one.

**`Step.change`: a step of a reachable engine comes to one change of its core.**
-/

set_option autoImplicit false

namespace ReactiveRules

open Relation (ReflTransGen)

/-- What an engine is asked from outside. -/
inductive Request where
  | define (d : Definition)
  | deregister (id : String)
  | observe (node id : String)
  | setPaused (id : String) (paused : Bool)
  | dispatch (t : Trigger)
  | sweep
  /-- An instance is notified, in force or not. -/
  | notify (n : Nat) (t : Trigger) (a : Admission)
  | write (a : Aspect) (node name : String) (value : Json)
  /-- The client of a task goes away. -/
  | abandon (task : Nat)
  | abandonWrite (k : Nat)
  | guard (n : Nat) (name : String)
  | unguard (name : String)
  | listen (l : Listener)
  | unlisten (number : Nat)
  | clearFacts (n : Nat)
  | clearHistory
  /-- An instance is made that is in force nowhere. -/
  | add (d : Definition)
  | bind (name : String) (d : Device)
  | unbind (name : String)
  | openGate (gate : String)
  | subscribe (filter : EventFilter)
  | unsubscribe
  | start
  | stop
  deriving Inhabited

namespace Engine

variable {E E' : Engine}

def serve (E : Engine) : Request → Engine
  | .define d => (E.define d).1
  | .deregister id => (E.deregister id).1
  | .observe node id => (E.observe node id).1
  | .setPaused id paused => (E.setPaused id paused).1
  | .dispatch t => (E.dispatch t).1
  | .sweep => E.sweep.1
  | .notify n t a => (E.notify n t a).1
  | .write a node name value => (E.write a node name value).1
  | .abandon task => E.abandon task
  | .abandonWrite k => E.abandonWrite k
  | .guard n name => (E.guard n name).1
  | .unguard name => (E.unguard name).1
  | .listen l => E.listen l
  | .unlisten number => (E.unlisten number).1
  | .clearFacts n => E.clearFacts n
  | .clearHistory => { E with history := E.history.clear }
  | .add d => (E.addInstance d).1
  | .bind name d => { E with commands := E.commands.bind name d }
  | .unbind name => { E with commands := E.commands.unbind name }
  | .openGate gate => E.openGate gate
  | .subscribe filter => { E with bus := (E.bus.join filter).1 }
  | .unsubscribe => { E with bus := E.bus.leave }
  | .start => E.startWork.1
  | .stop => E.stopWork.1

/-- Whoever notifies an instance has got hold of one. -/
def Admits (E : Engine) : Request → Prop
  | .notify n _ _ => n < E.registry.instances.length
  | _ => True

theorem admits_notify {n : Nat} (h : n < E.registry.instances.length) (t : Trigger)
    (a : Admission) : E.Admits (.notify n t a) := h

/-- One step of an engine. -/
inductive Step (E : Engine) : Engine → Prop
  /-- A job takes a turn, if it can. -/
  | turn (j : Job) (second : Bool) : Step E (E.turn j second)
  /-- A time comes at which something goes on by itself. -/
  | strike {t : Nat} (ht : E.now ≤ t) : Step E (E.strike t)
  | pass {t : Nat} (ht : E.now ≤ t) : Step E { E with now := t }
  | request {q : Request} (hq : E.Admits q) : Step E (E.serve q)

abbrev Steps : Engine → Engine → Prop := ReflTransGen Step

/-- Nothing has happened at the engine yet. -/
def Fresh (E : Engine) : Prop :=
  ∃ (settings : Settings) (window capacity : Nat) (commands : CommandTable Device)
    (bus : Channel Nat) (host : Option (Graph Unit)),
    E = { settings, queue := { window }, history := { capacity }, commands, bus
          registry := { host } }

/-- Steps lead to the engine from one at which nothing has happened. -/
def Reachable (E : Engine) : Prop := ∃ E₀ : Engine, E₀.Fresh ∧ Steps E₀ E

/-- An engine with nothing done to it. -/
def blank : Engine := { queue := { window := 0 }, history := { capacity := 100 } }

theorem fresh_blank : blank.Fresh := ⟨_, _, _, _, _, _, rfl⟩

/-- A rule whose condition holds and whose action gives a number, at once. -/
def prompt : Definition :=
  { id := "r1", label := "L", condition := "true", action := "1", priority := 0
    evaluationDelay := 0, executionDelay := 0, refractoryPeriod := 0, parallel := false
    clearFacts := false, timeout := none, validity := .always }

/-- A notification of it. -/
def change : Trigger :=
  { rule := "r1", node := "n", name := "a", value := .null, aspect := .attribute }

theorem Fresh.reachable {E : Engine} (h : E.Fresh) : E.Reachable := ⟨E, h, .refl⟩

theorem fresh_ofSettings {s : Settings} {E : Engine} (h : ofSettings s = .ok E) : E.Fresh := by
  unfold ofSettings at h
  split at h
  · cases h
  · cases h
    exact ⟨s, _, _, _, _, _, rfl⟩

theorem Reachable.step {E E' : Engine} (h : E.Reachable) (hs : Step E E') : E'.Reachable := by
  obtain ⟨E₀, hf, h₀⟩ := h
  exact ⟨E₀, hf, h₀.tail hs⟩

theorem Reachable.steps {E E' : Engine} (h : E.Reachable) (hs : Steps E E') : E'.Reachable := by
  obtain ⟨E₀, hf, h₀⟩ := h
  exact ⟨E₀, hf, h₀.trans hs⟩

/-! ## What an engine does by itself -/

theorem steps_next (E : Engine) : Steps E E.next := by
  unfold next
  split
  · exact .refl
  · exact .single (.turn _ _)

theorem step_next (h : E.ready ≠ []) : Step E E.next := by
  unfold next
  split
  · next hr => exact absurd hr h
  · exact .turn _ _

theorem steps_settleIn (n : Nat) : ∀ E : Engine, Steps E (E.settleIn n) := by
  induction n with
  | zero => intro E; exact .refl
  | succ n ih =>
    intro E
    unfold settleIn
    split
    · exact .refl
    · exact (steps_next E).trans (ih _)

theorem steps_settle (E : Engine) : Steps E E.settle := steps_settleIn _ E

theorem now_turn (E : Engine) (hv : E.core.Valid) (j : Job) (second : Bool) :
    (E.turn j second).now = E.now := (change_turn hv j second).now

/-! ## What a step changes -/

/-- A request comes to one change, but for the one that clears the history. -/
theorem change_serve (hv : E.core.Valid) {q : Request} (hq : E.Admits q) (hc : q ≠ .clearHistory) :
    Core.Change E.core (E.serve q).core := by
  cases q with
  | define d => exact change_define E d
  | deregister id => exact change_deregister E id
  | observe node id => exact change_observe E node id
  | setPaused id paused => exact change_setPaused E id paused
  | dispatch t => exact change_dispatch E t
  | sweep =>
    obtain ⟨is, ha, hc⟩ := sweeps_sweep E
    exact hc ▸ .tweaks ha
  | notify n t a => exact change_notify E hq t a
  | write a node name value => exact change_write E a node name value
  | abandon task => exact change_abandonRunOf hv _
  | abandonWrite k => exact change_abandonRunOf (E := { E with
      writes := E.writes.modify k fun x => { x with remaining := [] }
      ready := E.ready.erase (.write k) }) hv _
  | guard n name => exact change_guard E n name
  | unguard name => exact core_unguard E name ▸ .unguards name
  | listen l => exact .listens _
  | unlisten number => exact .listens _
  | clearFacts n => exact .tweaks (alike_modify fun _ => ⟨rfl, List.nil_subset _⟩)
  | clearHistory => exact absurd rfl hc
  | add d => exact .adds d
  | bind name d => exact .rest
  | unbind name => exact .rest
  | openGate gate => exact change_of_core (core_openGate E gate)
  | subscribe filter => exact .rest
  | unsubscribe => exact .rest
  | start => exact change_of_core (core_startWork E)
  | stop => exact change_of_core (core_stopWork E)

theorem step_serve (hv : E.core.Valid) {q : Request} (hq : E.Admits q) :
    E.core.Step (E.serve q).core := by
  by_cases hc : q = .clearHistory
  · subst hc
    exact .forgets
  · exact .change (change_serve hv hq hc)

theorem now_serve (hv : E.core.Valid) {q : Request} (hq : E.Admits q) : (E.serve q).now = E.now := by
  by_cases hc : q = .clearHistory
  · subst hc
    rfl
  · exact (change_serve hv hq hc).now

/-- **A step is a step of the core.** -/
theorem Step.core (h : Step E E') (hv : E.core.Valid) : E.core.Step E'.core := by
  cases h with
  | turn j second => exact .change (change_turn hv j second)
  | strike ht => exact step_strike E ht
  | pass ht => exact .pass ht (alike_refl _)
  | request hq => exact step_serve hv hq

theorem Fresh.valid (h : E.Fresh) : E.core.Valid := by
  obtain ⟨_, _, _, _, _, _, rfl⟩ := h
  exact ⟨fun r hr => absurd hr (Nat.not_lt_zero r), fun p hp => absurd hp List.not_mem_nil⟩

/-- A property of cores that every fresh engine has and every step keeps. -/
theorem Reachable.induction {P : Core → Prop} (h : E.Reachable)
    (hf : ∀ E₀ : Engine, E₀.Fresh → P E₀.core)
    (hs : ∀ C C' : Core, C.Valid → P C → C.Step C' → P C') : P E.core := by
  obtain ⟨E₀, h₀, hst⟩ := h
  -- a step can only be told of the core if its numbers are valid, so that goes along
  have hboth : E.core.Valid ∧ P E.core := by
    induction hst with
    | refl => exact ⟨h₀.valid, hf E₀ h₀⟩
    | tail _ hstep ih =>
      have hc := hstep.core ih.1
      exact ⟨ih.1.step hc, hs _ _ ih.1 ih.2 hc⟩
  exact hboth.2

theorem Reachable.valid (h : E.Reachable) : E.core.Valid :=
  h.induction (fun _ hf => hf.valid) fun _ _ hv _ hs => hv.step hs

/-- A property of cores that every step of a reachable engine keeps stays with it. -/
theorem Steps.induction {P : Core → Prop} (h : Steps E E') (hE : E.Reachable) (hP : P E.core)
    (hs : ∀ C C' : Core, C.Valid → P C → C.Step C' → P C') : P E'.core := by
  induction h with
  | refl => exact hP
  | @tail E₁ E₂ h₁ hstep ih =>
    have hv := (hE.steps h₁).valid
    exact hs _ _ hv ih (hstep.core hv)

theorem Steps.follows (h : Steps E E') (hE : E.Reachable) : E.core.Follows E'.core :=
  h.induction (P := fun C => E.core.Follows C) hE (.refl _)
    fun _ _ hv hP hs => hP.trans (hs.follows hv)

/-- A course of an engine from one at which nothing has happened: the states after each step. -/
structure Trail (E : Nat → Engine) (last : Nat) : Prop where
  fresh : (E 0).Fresh
  step : ∀ k, k < last → Step (E k) (E (k + 1))

namespace Trail

variable {E : Nat → Engine} {last : Nat}

theorem steps (h : Trail E last) {j k : Nat} (hjk : j ≤ k) (hk : k ≤ last) : Steps (E j) (E k) := by
  induction hjk with
  | refl => exact .refl
  | @step k _ ih => exact (ih (Nat.le_of_succ_le hk)).tail (h.step k hk)

theorem reachable (h : Trail E last) {k : Nat} (hk : k ≤ last) : (E k).Reachable :=
  ⟨E 0, h.fresh, h.steps (Nat.zero_le k) hk⟩

end Trail

/-! ## Time passing -/

theorem now_settleIn (n : Nat) : ∀ {E : Engine}, E.Reachable → (E.settleIn n).now = E.now := by
  induction n with
  | zero => intro E _; rfl
  | succ n ih =>
    intro E hE
    unfold settleIn
    split
    · rfl
    · rw [ih (hE.steps (steps_next E))]
      unfold next
      split
      · rfl
      · exact now_turn E hE.valid _ _

theorem steps_passTime (hE : E.Reachable) {t target : Nat} (ht : E.now = t) (hle : t ≤ target) :
    Steps E (E.passTime t target) := by
  -- every timer on the way is later than the one before, so the time left shrinks
  induction h : target - t using Nat.strongRecOn generalizing E t with
  | ind k ih =>
    unfold passTime
    split
    · exact .single (.pass (by omega))
    · next due _ =>
      split
      · next hd =>
        have hstrike : Steps E (E.strike due).settle :=
          (ReflTransGen.single (Step.strike (by omega))).trans (steps_settle _)
        have hr := hE.steps hstrike
        have hnow : (E.strike due).settle.now = due := by
          have hst : (E.strike due).Reachable := hE.step (.strike (by omega))
          rw [settle, now_settleIn _ hst]
          exact now_strike E due
        exact hstrike.trans (ih (target - due) (by omega) hr hnow hd.2 rfl)
      · exact .single (.pass (by omega))

/-- Letting time pass is a matter of steps. -/
theorem steps_advance (hE : E.Reachable) (ms : Nat) : Steps E (E.advance ms) :=
  steps_passTime hE rfl (Nat.le_add_right _ _)

end Engine

end ReactiveRules
