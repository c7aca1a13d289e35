import ReactiveRules.Graph.Basic

/-!
# `Proofs/Graph/Watchers.lean` — who watches a node

The watchers of a node are its observers at one aspect, of which one may only be interested in those
whose keys have a property. **Attaching and detaching under a key leave alone everybody whose key is
another** (`Graph.watchers_attach_of_not`, `Graph.watchers_detach_of_not`), their order included, and
writing leaves everybody alone.
-/

set_option autoImplicit false

namespace ReactiveRules

variable {ο : Type}

/-- Of a list in which a name was given a new entry, that entry is found under the name. -/
theorem find?_put {β : Type} (entries : List (String × β)) (name : String) (b : β) (other : String) :
    (entries.filter (·.1 != name) ++ [(name, b)]).find? (·.1 == other)
      = if name = other then some (name, b) else entries.find? (·.1 == other) := by
  rw [List.find?_append]
  split
  · next h =>
    subst h
    have hnone : (entries.filter (·.1 != name)).find? (·.1 == name) = none := by
      rw [List.find?_eq_none]
      intro p hp
      simpa using (List.mem_filter.mp hp).2
    rw [hnone]
    simp
  · next h =>
    have hkept : (entries.filter (·.1 != name)).find? (·.1 == other)
        = entries.find? (·.1 == other) := by
      rw [List.find?_filter]
      congr 1
      funext p
      by_cases hp : p.1 = other
      · simp [hp, Ne.symm h]
      · simp [hp]
    have hlast : [(name, b)].find? (·.1 == other) = none := by simp [h]
    rw [hkept, hlast, Option.or_none]

namespace Vertex

theorem observers_withObservers (v : Vertex ο) (a b : Aspect) (os : List (Observer ο)) :
    (v.withObservers a os).observers b = if a = b then os else v.observers b := by
  cases a <;> cases b <;> rfl

theorem observers_withValues (v : Vertex ο) (a b : Aspect) (xs : List (String × Json)) :
    (v.withValues a xs).observers b = v.observers b := by
  cases a <;> cases b <;> rfl

theorem observers_attach (v : Vertex ο) (a b : Aspect) (o : Observer ο) :
    (v.attach a o).observers b
      = if a = b then (v.observers b).filter (·.key != o.key) ++ [o] else v.observers b := by
  rw [attach, observers_withObservers]
  split
  · next h => rw [h]
  · rfl

/-- Detaching from both aspects, one after the other, is detaching from each. -/
theorem observers_detach (v : Vertex ο) (b : Aspect) (key : String) :
    ((v.detach .attribute key).detach .property key).observers b
      = (v.observers b).filter (·.key != key) := by
  cases b <;> rfl

end Vertex

namespace Graph

theorem vertex_setVertex (g : Graph ο) (node : String) (v : Vertex ο) (m : String) :
    (g.setVertex node v).vertex m = if node = m then v else g.vertex m := by
  unfold setVertex vertex
  rw [find?_put]
  split <;> rfl

/-- The observers of an aspect of a node whose keys have a property, in order. -/
def watchers (g : Graph ο) (node : String) (a : Aspect) (p : String → Bool) : List (Observer ο) :=
  ((g.vertex node).observers a).filter fun o => p o.key

/-- Has the node an observer of that key at the aspect? -/
def Carries (g : Graph ο) (node : String) (a : Aspect) (key : String) : Prop :=
  ∃ o ∈ (g.vertex node).observers a, o.key = key

theorem carries_iff {g : Graph ο} {node : String} {a : Aspect} {key : String} :
    g.Carries node a key ↔ g.watchers node a (· == key) ≠ [] := by
  constructor
  · rintro ⟨o, ho, hk⟩
    exact List.ne_nil_of_mem (List.mem_filter.mpr ⟨ho, beq_iff_eq.mpr hk⟩)
  · intro h
    obtain ⟨o, ho⟩ := List.exists_mem_of_ne_nil _ h
    obtain ⟨ho, hk⟩ := List.mem_filter.mp ho
    exact ⟨o, ho, beq_iff_eq.mp hk⟩

theorem watchers_setVertex (g : Graph ο) (node : String) (v : Vertex ο) (m : String) (a : Aspect)
    (p : String → Bool) : (g.setVertex node v).watchers m a p
      = if node = m then (v.observers a).filter (fun o => p o.key) else g.watchers m a p := by
  rw [watchers, vertex_setVertex]
  split <;> rfl

/-- Among those who are picked out, nobody has a key that is not. -/
theorem filter_key_ne {os : List (Observer ο)} {p : String → Bool} {key : String}
    (h : p key = false) :
    (os.filter (·.key != key)).filter (fun o => p o.key) = os.filter fun o => p o.key := by
  rw [List.filter_filter]
  refine List.filter_congr fun o _ => ?_
  by_cases ho : o.key = key
  · rw [ho, h]
    rfl
  · simp [ho]

theorem watchers_attach_of_not (g : Graph ο) (node : String) (a : Aspect) (o : Observer ο)
    {p : String → Bool} (h : p o.key = false) (m : String) (b : Aspect) :
    (g.attach node a o).watchers m b p = g.watchers m b p := by
  rw [attach, update, watchers_setVertex]
  split
  · next hm =>
    rw [← hm, Vertex.observers_attach]
    split
    · rw [List.filter_append, filter_key_ne h]
      simp [h, watchers]
    · rfl
  · rfl

/-- Whoever is attached takes the place of all with its key. -/
theorem watchers_attach_self (g : Graph ο) (node : String) (a : Aspect) (o : Observer ο)
    (m : String) (b : Aspect) : (g.attach node a o).watchers m b (· == o.key)
      = if node = m ∧ a = b then [o] else g.watchers m b (· == o.key) := by
  rw [attach, update, watchers_setVertex]
  by_cases hm : node = m
  · by_cases ha : a = b
    · have hnone : ((g.vertex node).observers b).filter (fun x => x.key == o.key && x.key != o.key)
          = [] := by
        rw [List.filter_eq_nil_iff]
        simp
      rw [if_pos hm, if_pos ⟨hm, ha⟩, Vertex.observers_attach, if_pos ha, List.filter_append,
        List.filter_filter, hnone]
      simp
    · rw [if_pos hm, if_neg fun h => ha h.2, Vertex.observers_attach, if_neg ha, ← hm]
      rfl
  · rw [if_neg hm, if_neg fun h => hm h.1]

theorem watchers_detach_of_not (g : Graph ο) (node key : String) {p : String → Bool}
    (h : p key = false) (m : String) (b : Aspect) :
    (g.detach node key).1.watchers m b p = g.watchers m b p := by
  rw [detach, watchers_setVertex, Vertex.observers_detach]
  split
  · next hm => rw [filter_key_ne h, hm, watchers]
  · rfl

theorem watchers_detach_self (g : Graph ο) (node key m : String) (b : Aspect) :
    (g.detach node key).1.watchers m b (· == key)
      = if node = m then [] else g.watchers m b (· == key) := by
  rw [detach, watchers_setVertex, Vertex.observers_detach]
  split
  · rw [List.filter_filter, List.filter_eq_nil_iff]
    simp
  · rfl

theorem watchers_write (g : Graph ο) (node : String) (a : Aspect) (name : String) (value : Json)
    (m : String) (b : Aspect) (p : String → Bool) :
    (g.write node a name value).1.watchers m b p = g.watchers m b p := by
  rw [write, update, watchers_setVertex, Vertex.store, Vertex.observers_withValues]
  split
  · next hm => rw [hm, watchers]
  · rfl

end Graph

end ReactiveRules
