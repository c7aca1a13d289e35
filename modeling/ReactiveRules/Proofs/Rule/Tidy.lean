import ReactiveRules.Proofs.Facts.Expiry
import ReactiveRules.Rule.Registry

/-!
# `Proofs/Rule/Tidy.lean` — registries without expired facts

**Two registries that are the same but for expired facts answer every operation alike and stay the
same but for expired facts** (`Registry.Resembles.register`, `deregister`, `observe`, `modify`), as
time passes and however they are swept.
-/

set_option autoImplicit false

namespace ReactiveRules

/-- Two results of an operation: the same answer, and states that stand in a relation. -/
structure Agrees {σ α : Type} (r : σ → σ → Prop) (x x' : σ × α) : Prop where
  answer : x'.2 = x.2
  state : r x.1 x'.1

theorem Agrees.pair {σ α : Type} {r : σ → σ → Prop} {x x' : σ × α} (h : Agrees r x x') :
    ∃ X X' a, x = (X, a) ∧ x' = (X', a) ∧ r X X' :=
  ⟨_, _, _, rfl, Prod.ext rfl h.answer, h.state⟩

/-- What is made of the answer is the same, too. -/
theorem Agrees.map {σ α β : Type} {r : σ → σ → Prop} {x x' : σ × α} (h : Agrees r x x')
    (f : α → β) : Agrees r (x.1, f x.2) (x'.1, f x'.2) := ⟨congrArg f h.answer, h.state⟩

/-- The instance without its expired facts. -/
def Instance.tidy (now : Nat) (i : Instance) : Instance := i.mapRule (·.sweep now)

namespace Registry

/-- The registry without expired facts. -/
def tidy (now : Nat) (R : Registry) : Registry :=
  { R with instances := R.instances.map (·.tidy now) }

/-- The two registries are the same but for expired facts. -/
def Resembles (now : Nat) (R R' : Registry) : Prop := R.tidy now = R'.tidy now

variable {R R' : Registry} {now : Nat}

theorem tidy_ruleAt (R : Registry) (now n : Nat) :
    (R.tidy now).instances.getD n default = (R.instances.getD n default).tidy now := by
  simp only [tidy, List.getD_eq_getElem?_getD, List.getElem?_map]
  cases R.instances[n]? <;> rfl

namespace Resembles

/-- What is seen of registries without expired facts is seen of both. -/
theorem see {β : Type} (h : Resembles now R R') (f : Registry → β)
    (hf : ∀ R, f (R.tidy now) = f R) : f R' = f R := by
  rw [← hf R', ← hf R, show R.tidy now = R'.tidy now from h]

/-- What touches no facts does the same to both. -/
theorem map (h : Resembles now R R') {f : Registry → Registry}
    (hf : ∀ R, (f R).tidy now = f (R.tidy now)) : Resembles now (f R) (f R') := by
  unfold Resembles
  rw [hf, hf, show R.tidy now = R'.tidy now from h]

theorem find (h : Resembles now R R') (id : String) :
    (R'.find? id).map (·.tidy now) = (R.find? id).map (·.tidy now) := by
  have hone : ∀ R : Registry, (R.find? id).map (·.tidy now) = (R.tidy now).find? id := by
    intro R
    show ((R.number? id).bind fun n => R.instances[n]?).map (·.tidy now)
      = (R.number? id).bind fun n => (R.instances.map (·.tidy now))[n]?
    cases R.number? id with
    | none => rfl
    | some n => exact List.getElem?_map.symm
  rw [hone, hone, show R.tidy now = R'.tidy now from h]

/-- What is seen of an instance without expired facts is seen of both, in force or not. -/
theorem nth {β : Type} (h : Resembles now R R') (n : Nat) (f : Instance → β)
    (hf : ∀ i, f (i.tidy now) = f i) :
    (R'.instances[n]?).map f = (R.instances[n]?).map f := by
  refine h.see (fun R => (R.instances[n]?).map f) fun R => ?_
  show ((R.instances.map (·.tidy now))[n]?).map f = (R.instances[n]?).map f
  rw [List.getElem?_map, Option.map_map]
  exact congrArg (Option.map · _) (funext hf)

theorem modify (h : Resembles now R R') (n : Nat) {f f' : Instance → Instance}
    (hf : ∀ i i', i.tidy now = i'.tidy now → (f i).tidy now = (f' i').tidy now) :
    Resembles now (R.modify n f) (R'.modify n f') := by
  have hi : R.instances.map (·.tidy now) = R'.instances.map (·.tidy now) :=
    congrArg Registry.instances h
  have hm : (R.instances.modify n f).map (·.tidy now)
      = (R'.instances.modify n f').map (·.tidy now) := by
    apply List.ext_getElem?
    intro m
    have hm := congrArg (·[m]?) hi
    simp only [List.getElem?_map, List.getElem?_modify] at hm ⊢
    cases hx : R.instances[m]? <;> cases hx' : R'.instances[m]? <;> rw [hx, hx'] at hm
    · rfl
    · cases hm
    · cases hm
    · next i i' =>
      have hii := Option.some.inj hm
      by_cases hnm : n = m
      · simpa [hnm] using hf i i' hii
      · simpa [hnm] using hii
  show ({ R.tidy now with instances := (R.instances.modify n f).map (·.tidy now) } : Registry)
    = { R'.tidy now with instances := (R'.instances.modify n f').map (·.tidy now) }
  rw [show R.tidy now = R'.tidy now from h, hm]

theorem retire (h : Resembles now R R') (n : Nat) : Resembles now (R.retire n) (R'.retire n) :=
  h.modify n fun _ _ hi => congrArg (Instance.mapRule Rule.retire) hi

theorem add (h : Resembles now R R') (d : Definition) :
    Agrees (Resembles now) (R.add d) (R'.add d) := by
  refine ⟨h.see (·.instances.length) fun R => List.length_map _, ?_⟩
  refine h.map (f := fun R => (R.add d).1) fun R => ?_
  let new := Instance.ofDefinition d
  show ({ R with instances := (R.instances ++ [new]).map (·.tidy now) } : Registry)
    = { R with instances := R.instances.map (·.tidy now) ++ [new] }
  rw [List.map_append]
  rfl

theorem register (h : Resembles now R R') (d : Definition) :
    Agrees (Resembles now) (R.register d) (R'.register d) := by
  have hn : R'.number? d.id = R.number? d.id := h.see (·.number? d.id) fun _ => rfl
  obtain ⟨X, X', n, hx, hx', hX⟩ := (h.add d).pair
  have hE : Resembles now (X.enforce d.id n) (X'.enforce d.id n) :=
    hX.map (f := fun R => R.enforce d.id n) fun _ => rfl
  unfold Registry.register
  rw [hx, hx', hn]
  split
  · exact ⟨rfl, h⟩
  · refine ⟨rfl, ?_⟩
    dsimp only
    split
    · exact hE.retire _
    · exact hE

theorem deregister (h : Resembles now R R') (id : String) :
    Agrees (Resembles now) (R.deregister id) (R'.deregister id) := by
  have hn : R'.number? id = R.number? id := h.see (·.number? id) fun _ => rfl
  have ho : R'.observedNodes id = R.observedNodes id := h.see (·.observedNodes id) fun _ => rfl
  unfold Registry.deregister
  rw [hn, ho]
  split
  · exact ⟨rfl, h⟩
  · next n _ =>
    have hR := (h.map (f := fun R => { R with
      registered := R.registered.filter (·.1 != id)
      observed := R.observed.filter (·.1 != id) }) fun _ => rfl).retire n
    have hh := hR.see (·.host) fun _ => rfl
    dsimp only at *
    rw [hh]
    split
    · exact ⟨rfl, hR⟩
    · exact ⟨rfl, hR.map (f := fun R => { R with host := _ }) fun _ => rfl⟩

theorem observe (h : Resembles now R R') (node id : String) :
    Agrees (Resembles now) (R.observe node id) (R'.observe node id) := by
  have hc : R'.contains id = R.contains id := h.see (·.contains id) fun _ => rfl
  have hh : R'.host = R.host := h.see (·.host) fun _ => rfl
  have ho : R'.observed = R.observed := h.see (·.observed) fun _ => rfl
  unfold Registry.observe
  rw [hc, hh, ho]
  split
  · exact ⟨rfl, h⟩
  · split
    · exact ⟨rfl, h⟩
    · exact ⟨rfl, h.map (f := fun R => { R with host := _, observed := _ }) fun _ => rfl⟩

/-- What is taken away early would be taken away later. -/
theorem later (h : Resembles now R R') {t : Nat} (ht : now ≤ t) : Resembles t R R' := by
  have hone : ∀ R : Registry, (R.tidy now).tidy t = R.tidy t := by
    intro R
    show ({ R with instances := (R.instances.map (·.tidy now)).map (·.tidy t) } : Registry)
      = { R with instances := R.instances.map (·.tidy t) }
    rw [List.map_map]
    congr 1
    refine List.map_congr_left fun i _ => ?_
    show ({ i with facts := (i.facts.sweep now).sweep t } : Instance)
      = { i with facts := i.facts.sweep t }
    rw [FactMemory.sweep_sweep _ ht]
  unfold Resembles
  rw [← hone R, show R.tidy now = R'.tidy now from h, hone R']

end Resembles

/-- Sweeping takes away what is not there when tidy. -/
theorem sweep_resembles (R : Registry) (now : Nat) : Resembles now (R.sweep now) R := by
  have hswept : ∀ i i' : Instance, i.tidy now = i'.tidy now →
      (i.mapRule (·.sweep now)).tidy now = i'.tidy now := by
    intro i i' hi
    rw [← hi]
    show ({ i with facts := (i.facts.sweep now).sweep now } : Instance) = _
    rw [FactMemory.sweep_sweep _ (Nat.le_refl _)]
    rfl
  have hall : ∀ (xs : List (String × Nat)) (R : Registry),
      Resembles now (xs.foldl (fun r x => r.modify x.2 (.mapRule (·.sweep now))) R) R := by
    intro xs
    induction xs with
    | nil => exact fun R => rfl
    | cons x rest ih =>
      intro R
      refine (ih _).trans ?_
      refine (Resembles.modify (rfl : R.tidy now = R.tidy now) x.2 hswept).trans ?_
      exact congrArg (fun is => Registry.tidy now { R with instances := is }) (List.modify_id _ _)
  exact hall _ R

end Registry

end ReactiveRules
