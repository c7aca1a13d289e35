import Mathlib.Logic.Basic
import ReactiveRules.Proofs.Graph.Watchers
import ReactiveRules.Proofs.Rule.Tidy

/-!
# `Proofs/Rule/Mirrors.lean` — registries over graphs that are watched alike

What is stored in the graph is of no account to a registry: it attaches observers and detaches them,
and tells how many there were. **Over graphs that are watched alike, an operation has the same outcome
and leaves them watched alike** (`Registry.Mirrors`).
-/

set_option autoImplicit false

namespace ReactiveRules

/-- The two graphs are watched alike. -/
def Graph.Mirrors (g g' : Graph Unit) : Prop :=
  ∀ node a, (g.vertex node).observers a = (g'.vertex node).observers a

namespace Graph.Mirrors

variable {g g' : Graph Unit}

theorem symm (h : g.Mirrors g') : g'.Mirrors g := fun node a => (h node a).symm

/-- As many observers are detached from the one as from the other. -/
theorem detach (h : g.Mirrors g') (node key : String) :
    Agrees Graph.Mirrors (g.detach node key) (g'.detach node key) := by
  have hv : ∀ b, (((g.vertex node).detach .attribute key).detach .property key).observers b
      = (((g'.vertex node).detach .attribute key).detach .property key).observers b := by
    intro b
    rw [Vertex.observers_detach, Vertex.observers_detach, h node b]
  have hcount : ∀ v v' : Vertex Unit, (∀ b, v.observers b = v'.observers b) →
      v'.observerCount = v.observerCount := by
    intro v v' hb
    have ha := congrArg List.length (hb .attribute)
    have hp := congrArg List.length (hb .property)
    exact (congrArg₂ (· + ·) ha hp).symm
  refine ⟨congrArg₂ (· - ·) (hcount _ _ (h node)) (hcount _ _ hv), fun m b => ?_⟩
  unfold Graph.detach
  rw [vertex_setVertex, vertex_setVertex]
  split
  · exact hv b
  · exact h m b

theorem detachAll (key : String) (nodes : List String) : ∀ {g g' : Graph Unit}, g.Mirrors g' →
    Agrees Graph.Mirrors (Registry.detachAll g key nodes) (Registry.detachAll g' key nodes) := by
  induction nodes with
  | nil => exact fun h => ⟨rfl, h⟩
  | cons node rest ih =>
    intro g g' h
    have hd := h.detach node key
    have hr := ih hd.state
    exact ⟨congrArg₂ (· + ·) hd.answer hr.answer, hr.state⟩

/-- A write changes what is stored, and not who watches. -/
theorem write (g : Graph Unit) (node : String) (a : Aspect) (name : String) (value : Json) :
    g.Mirrors (g.write node a name value).1 := by
  intro m b
  show _ = ((g.setVertex node ((g.vertex node).store a name value)).vertex m).observers b
  rw [vertex_setVertex]
  split
  · next hm => rw [← hm, Vertex.store, Vertex.observers_withValues]
  · rfl

end Graph.Mirrors

namespace Registry

/-- The registry without the graph. -/
def bare (R : Registry) : Registry := { R with host := none }

/-- The registry when an instance is struck off, but for those it observed. -/
def struck (R : Registry) (id : String) (n : Nat) : Registry :=
  ({ R with
    registered := R.registered.filter (·.1 != id)
    observed := R.observed.filter (·.1 != id) } : Registry).retire n

theorem deregister_struck {R : Registry} {id : String} {n : Nat} (hn : R.number? id = some n) :
    R.deregister id = match R.host with
      | none => (R.struck id n, .ok ⟨n, 0⟩)
      | some g =>
        ({ R.struck id n with host := some (detachAll g id (R.observedNodes id)).1 },
          .ok ⟨n, (detachAll g id (R.observedNodes id)).2⟩) := by
  unfold deregister
  rw [hn]
  rfl

/-- The two registries are the same but for what is stored in the graph. -/
structure Mirrors (R R' : Registry) : Prop where
  bare : R.bare = R'.bare
  host : Option.Rel Graph.Mirrors R.host R'.host

namespace Mirrors

variable {R R' : Registry}

theorem number? (h : R.Mirrors R') (id : String) : R'.number? id = R.number? id :=
  congrArg (·.number? id) h.bare.symm

theorem register (h : R.Mirrors R') (d : Definition) :
    Agrees Mirrors (R.register d) (R'.register d) := by
  -- neither the answer nor the new instance has to do with the graph
  have hone : ∀ R : Registry, (R.register d).1.bare = (R.bare.register d).1 ∧
      (R.register d).2 = (R.bare.register d).2 ∧ (R.register d).1.host = R.host := by
    intro R
    have hn : R.bare.number? d.id = R.number? d.id := rfl
    unfold Registry.register
    rw [hn]
    cases d.check with
    | error e => exact ⟨rfl, rfl, rfl⟩
    | ok _ => cases R.number? d.id <;> exact ⟨rfl, rfl, rfl⟩
  obtain ⟨hb, ha, hh⟩ := hone R
  obtain ⟨hb', ha', hh'⟩ := hone R'
  refine ⟨by rw [ha, ha', h.bare], by rw [hb, hb', h.bare], ?_⟩
  rw [hh, hh']
  exact h.host

theorem deregister (h : R.Mirrors R') (id : String) :
    Agrees Mirrors (R.deregister id) (R'.deregister id) := by
  have hnodes : R'.observedNodes id = R.observedNodes id :=
    congrArg (·.observedNodes id) h.bare.symm
  have hn := h.number? id
  cases hnum : R.number? id with
  | none =>
    rw [hnum] at hn
    unfold Registry.deregister
    rw [hnum, hn]
    exact ⟨rfl, h⟩
  | some n =>
    rw [hnum] at hn
    have hs : (R.struck id n).bare = (R'.struck id n).bare :=
      congrArg (·.struck id n) h.bare
    rw [deregister_struck hnum, deregister_struck hn, hnodes]
    have hh := h.host
    cases hg : R.host with
    | none =>
      cases hg' : R'.host with
      | none => exact ⟨rfl, hs, h.host⟩
      | some g' => rw [hg, hg'] at hh; cases hh
    | some g =>
      cases hg' : R'.host with
      | none => rw [hg, hg'] at hh; cases hh
      | some g' =>
        rw [hg, hg'] at hh
        cases hh with
        | some hm =>
          have hd := hm.detachAll id (R.observedNodes id)
          exact ⟨congrArg (fun k : Nat => (.ok ⟨n, k⟩ : Except RuleError Removed)) hd.answer, hs,
            .some hd.state⟩

/-- The facts that have expired are the same in both. -/
theorem sweep (h : R.Mirrors R') (now : Nat) : (R.sweep now).Mirrors (R'.sweep now) := by
  have hone : ∀ R : Registry,
      (R.sweep now).bare = R.bare.sweep now ∧ (R.sweep now).host = R.host := by
    intro R
    have hall : ∀ (xs : List (String × Nat)) (R : Registry),
        (xs.foldl (fun r x => r.modify x.2 (.mapRule (·.sweep now))) R).bare
          = xs.foldl (fun r x => r.modify x.2 (.mapRule (·.sweep now))) R.bare ∧
        (xs.foldl (fun r x => r.modify x.2 (.mapRule (·.sweep now))) R).host = R.host := by
      intro xs
      induction xs with
      | nil => exact fun R => ⟨rfl, rfl⟩
      | cons x rest ih => exact fun R => ih _
    exact hall R.registered R
  refine ⟨?_, ?_⟩
  · rw [(hone R).1, (hone R').1, h.bare]
  · rw [(hone R).2, (hone R').2]
    exact h.host

end Mirrors

end Registry

end ReactiveRules
