import ReactiveRules.Proofs.Engine.Reach
import ReactiveRules.Proofs.Rule.Roster

/-!
# `Proofs/Engine/Enrolment.lean` — the registry of an engine

Whatever an engine does, its registry sees registrations, removals, new instances, and work of its
instances (`Core.Step.sees`): a run leaves the definition of its instance as it is, and never
retires it. So the registry of an engine shows a roster at all times (`Engine.Reachable.shows`).
-/

set_option autoImplicit false

namespace ReactiveRules

/-! ## Work -/

namespace Scene

variable {now : Nat} {S S' : Scene} {ls : List Listener}

theorem Acts.retired_eq (h : Acts now S S') : S'.rule.retired = S.rule.retired := by
  cases h with
  | unread e => rfl
  | acting e => rfl

theorem Decides.retired_eq (h : Decides now S S') : S'.rule.retired = S.rule.retired := by
  cases h with
  | misjudged e => rfl
  | declines => rfl
  | proceeds hp =>
    cases hp with
    | rests hr => rfl
    | delays hr hd => rfl
    | acts hr hd ha => exact ha.retired_eq

theorem Starts.retired_eq (h : Starts now ls S S') : S'.rule.retired = S.rule.retired := by
  cases h with
  | rests hr => rfl
  | broke hr hv => rfl
  | vetoed hr hv => rfl
  | judges hr hv hj => cases hj <;> rfl

theorem Claims.retired_eq (h : Claims now ls S S') : S'.rule.retired = S.rule.retired := by
  cases h with
  | retired h => rfl
  | starts h hs ha => exact ha.retired_eq
  | busy h hs ha => rfl
  | waits h hs ha => rfl

/-- No turn retires an instance. -/
theorem Turn.retired_eq (h : Turn now ls S S') : S'.rule.retired = S.rule.retired := by
  cases h with
  | paused hs hp => rfl
  | rests hs hp hr => rfl
  | arrives hs hp hr hd ha => exact ha.retired_eq
  | fires hs hd ha =>
    refine ha.retired_eq.trans ?_
    simp only [mapRule, Instance.mapRule, Rule.finishPending_eq]
  | cancelled hs => rfl
  | gains hs hw hc ha => exact ha.retired_eq
  | leaves hs hr => rfl
  | queues hs hw hc hr => rfl
  | acts hs hd ha => exact ha.retired_eq
  | forgoes hs hr => rfl
  | broke hs m => rfl
  | decides hs ha => exact ha.retired_eq
  | concludes hs result => cases result <;> rfl

end Scene

namespace Registry

/-- Is the second instance what has become of the first by work? -/
def Works (i j : Instance) : Prop := j.definition = i.definition ∧ j.retired = i.retired

open Classical in
/-- Work that makes of each instance the one at its place, if it can be. -/
noncomputable def workTo (js : List Instance) : Work where
  apply n i := if Works i (js.getD n default) then js.getD n default else i
  definition n i := by
    split
    · next h => exact h.1
    · rfl
  retired n i := by
    split
    · next h => exact h.2
    · rfl

theorem worked_workTo {r : Registry} {js : List Instance}
    (h : List.Forall₂ Works r.instances js) : r.worked (workTo js) = { r with instances := js } := by
  have hinst : r.instances.mapIdx (workTo js).apply = js := by
    apply List.ext_getElem
    · simp [h.length_eq]
    · intro n hn hn'
      have hw := (List.forall₂_iff_get.mp h).2 n (by simpa using hn) hn'
      have hd : js.getD n default = js[n] := by simp [hn']
      rw [List.getElem_mapIdx]
      dsimp only [workTo]
      rw [hd]
      exact if_pos hw
  rw [worked, hinst]

theorem works_refl (is : List Instance) : List.Forall₂ Works is is :=
  List.forall₂_same.mpr fun _ _ => ⟨rfl, rfl⟩

theorem works_trans {is js ks : List Instance} (h : List.Forall₂ Works is js)
    (h' : List.Forall₂ Works js ks) : List.Forall₂ Works is ks := by
  induction h generalizing ks with
  | nil => exact h'
  | cons hi _ ih =>
    cases h' with
    | cons hj ht => exact .cons ⟨hj.1.trans hi.1, hj.2.trans hi.2⟩ (ih ht)

theorem works_modify (is : List Instance) (n : Nat) {f : Instance → Instance}
    (hf : ∀ i, Works i (f i)) : List.Forall₂ Works is (is.modify n f) := by
  rw [List.forall₂_iff_get]
  refine ⟨by simp, fun m hm hm' => ?_⟩
  by_cases hn : n = m
  · subst hn
    simpa [List.getElem_modify] using hf _
  · simp [hn, Works]

theorem works_set {is : List Instance} {n : Nat} {j : Instance} (hj : Works (is.getD n default) j) :
    List.Forall₂ Works is (is.set n j) := by
  rw [List.forall₂_iff_get]
  refine ⟨by simp, fun m hm hm' => ?_⟩
  by_cases hn : n = m
  · subst hn
    simpa [hm] using hj
  · simp [hn, Works]

end Registry

/-! ## Steps -/

namespace Core

open Registry (Incident Works)

variable {C C' : Core}

/-- What a registry keeps of a core. -/
def registry (C : Core) : Registry := { instances := C.instances, registered := C.registered }

/-- One registry comes from another by incidents. -/
def Sees (C C' : Core) : Prop := ∃ is : List Incident, C'.registry = is.foldl Registry.after C.registry

theorem sees_of_works (hr : C'.registered = C.registered)
    (hw : List.Forall₂ Works C.instances C'.instances) : C.Sees C' := by
  refine ⟨[.work (Registry.workTo C'.instances)], ?_⟩
  have h := Registry.worked_workTo (r := C.registry) hw
  rw [registry, hr]
  exact h.symm

/-- What a scene shows of an instance that has only been at work. -/
theorem sees_put {S : Scene} (hd : S.rule.definition = (C.ruleAt S.run.rule).definition)
    (hr : S.rule.retired = (C.ruleAt S.run.rule).retired) : C.Sees (C.put S) :=
  sees_of_works rfl (Registry.works_set ⟨hd, hr⟩)

theorem registry_cancelPending (C : Core) (p : Option (Nat × Nat)) :
    (C.cancelPending p).registry = C.registry := by
  cases p <;> rfl

theorem works_unguard (C : Core) (name : String) :
    (C.unguard name).registered = C.registered ∧
      List.Forall₂ Works C.instances (C.unguard name).instances := by
  unfold unguard
  split
  · exact ⟨rfl, Registry.works_modify _ _ fun _ => ⟨rfl, rfl⟩⟩
  · exact ⟨rfl, Registry.works_refl _⟩

theorem works_of_alike {is js : List Instance} (h : List.Forall₂ Instance.Alike is js) :
    List.Forall₂ Works is js := by
  refine h.imp fun i j hij => ?_
  rw [hij.rest]
  exact ⟨rfl, rfl⟩

/-- **A registry comes from what it was before a change by incidents.** -/
theorem Change.sees (h : C.Change C') : C.Sees C' := by
  cases h with
  | rest => exact ⟨[], rfl⟩
  | spawns hn t a c => exact ⟨[], rfl⟩
  | listens ls => exact ⟨[], rfl⟩
  | @turns r hr S ht =>
    have hf := ht.follows
    refine sees_put ?_ ?_
    · rw [hf.inst.definition, hf.rule]
      rfl
    · rw [ht.retired_eq, hf.rule]
      rfl
  | @defers r hr hd =>
    obtain ⟨is, his⟩ : (C.cancelPending (C.scene r).rule.pending).Sees
        ((C.cancelPending (C.scene r).rule.pending).put (((C.scene r).accept C.now).defer C.now)) := by
      refine sees_put ?_ ?_ <;>
        · rw [ruleAt_cancelPending]
          rfl
    exact ⟨is, by rw [his, registry_cancelPending]⟩
  | abandons hr ha hs => exact sees_put rfl rfl
  | adds d => exact ⟨[.make d], rfl⟩
  | @defines d hd =>
    refine ⟨[.move (.register d)], ?_⟩
    have hnum : C.registry.number? d.id = C.number? d.id := rfl
    rw [List.foldl_cons, List.foldl_nil, Registry.after, Registry.play, Registry.register, hd,
      define, hnum]
    cases C.number? d.id with
    | none => rfl
    | some old => exact registry_cancelPending _ _
  | @deregisters id n hn =>
    refine ⟨[.move (.deregister id)], ?_⟩
    have hnum : C.registry.number? id = some n := hn
    rw [List.foldl_cons, List.foldl_nil, Registry.after, Registry.play, Registry.deregister, hnum]
    exact registry_cancelPending _ _
  | tweaks ha => exact sees_of_works rfl (works_of_alike ha)
  | @guards n slot hs name =>
    obtain ⟨hr, hw⟩ := works_unguard (C.modifyInstance n fun i => { i with slot }) name
    refine sees_of_works hr (Registry.works_trans ?_ hw)
    exact Registry.works_modify _ n fun _ => ⟨rfl, rfl⟩
  | unguards name => exact sees_of_works (works_unguard C name).1 (works_unguard C name).2

theorem Step.sees (h : C.Step C') : C.Sees C' := by
  cases h with
  | change hc => exact hc.sees
  | forgets => exact ⟨[], rfl⟩
  | pass ht ha => exact sees_of_works rfl (works_of_alike ha)

end Core

namespace Engine

open Registry (Incident Roster)

variable {E E' : Engine}

theorem Steps.sees (h : Steps E E') (hE : E.Reachable) : E.core.Sees E'.core :=
  h.induction hE ⟨[], rfl⟩ fun _ _ _ ⟨is, his⟩ hs => by
    obtain ⟨js, hjs⟩ := hs.sees
    exact ⟨is ++ js, by rw [hjs, his, List.foldl_append]⟩

/-- **The registry of an engine shows a roster at all times, and the instances that are retired are
those that have been in force and are not any more.** -/
theorem Reachable.shows (h : E.Reachable) : ∃ is : List Incident,
    E.registry.Shows (is.foldl Roster.after ∅) ∧ ∀ n i, E.registry.instances[n]? = some i →
      (i.retired = true ↔ Registry.Installed {} is n ∧ ∀ id, E.registry.number? id ≠ some n) := by
  obtain ⟨E₀, hfresh, hst⟩ := h
  obtain ⟨is, his⟩ := hst.sees hfresh.reachable
  have h₀ : E₀.core.registry = {} := by
    obtain ⟨settings, window, capacity, commands, bus, host, rfl⟩ := hfresh
    rfl
  rw [h₀] at his
  -- the core has of the registry all that its roster depends on
  have hcore := his ▸ Registry.Enrols.foldl_after none is
  have hE : Registry.Enrols E.registry _ _ := hcore.congr (r := E.core.registry) rfl rfl
  exact ⟨is, hE.shows, hE.retired_iff⟩

end Engine

end ReactiveRules
