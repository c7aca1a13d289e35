import ReactiveRules.Proofs.Graph.Watchers
import ReactiveRules.Rule.Registry

/-!
# `Proofs/Rule/Attachment.lean` — a registry and its graph stay in step

A registry remembers which nodes each rule observes; the graph has an observer under the rule's id
at both aspects of these nodes. Others use the graph too, under keys of their own.
**`Registry.InStep` says that both tell the same**, and whatever is done to the registry, or by others
to the graph, keeps it (`Registry.InStep.play`). So a rule that is removed leaves nothing behind
(`Registry.registry_matches_graph`).
-/

set_option autoImplicit false

namespace ReactiveRules

namespace Registry

/-! ## What is done to a registry -/

/-- What can be done to a registry, and by others to the graph that its rules observe. -/
inductive Move where
  /-- Puts a new rule in force, or takes the place of the one with its id. -/
  | register (d : Definition)
  | deregister (id : String)
  | observe (node id : String)
  /-- Somebody else attaches an observer to the graph. -/
  | attach (node : String) (a : Aspect) (key : String)
  | detach (node key : String)
  | write (node : String) (a : Aspect) (name : String) (value : Json)

/-- Somebody else does something to the graph. -/
def onHost (r : Registry) (f : Graph Unit → Graph Unit) : Registry := { r with host := r.host.map f }

def play (r : Registry) : Move → Registry
  | .register d => (r.register d).1
  | .deregister id => (r.deregister id).1
  | .observe node id => (r.observe node id).1
  | .attach node a key => r.onHost (·.attach node a ⟨key, ()⟩)
  | .detach node key => r.onHost fun g => (g.detach node key).1
  | .write node a name value => r.onHost fun g => (g.write node a name value).1

/-- Whoever else uses the graph uses keys of their own, and no rule has one of these as its id. -/
def Move.Respects (foreign : String → Prop) : Move → Prop
  | .register d => ¬ foreign d.id
  | .attach _ _ key | .detach _ key => foreign key
  | _ => True

/-- The id of the rule that a move on the registry is about. -/
def Move.rule? : Move → Option String
  | .register d => some d.id
  | .deregister id | .observe _ id => some id
  | _ => none

/-! ## Single operations -/

theorem contains_iff {r : Registry} {id : String} :
    r.contains id = true ↔ ∃ p ∈ r.registered, p.1 = id := by
  unfold contains number?
  rw [Option.isSome_map, List.find?_isSome]
  exact exists_congr fun p => and_congr_right fun _ => beq_iff_eq

theorem mem_observedNodes {r : Registry} {id node : String} :
    node ∈ r.observedNodes id ↔ (id, node) ∈ r.observed := by
  unfold observedNodes
  rw [List.mem_mergeSort, List.mem_map]
  constructor
  · rintro ⟨p, hp, rfl⟩
    obtain ⟨hp, hid⟩ := List.mem_filter.mp hp
    rw [beq_iff_eq] at hid
    exact hid ▸ hp
  · intro h
    exact ⟨(id, node), List.mem_filter.mpr ⟨h, beq_self_eq_true id⟩, rfl⟩

theorem observedNodes_congr {r s : Registry} (h : s.observed = r.observed) (id : String) :
    s.observedNodes id = r.observedNodes id := by
  unfold observedNodes
  rw [h]

/-- A definition, accepted or not, changes only which instances there are and who is in force. -/
theorem register_keeps (r : Registry) (d : Definition) :
    (r.register d).1.host = r.host ∧ (r.register d).1.observed = r.observed := by
  unfold register
  split
  · exact ⟨rfl, rfl⟩
  · dsimp only
    split <;> exact ⟨rfl, rfl⟩

theorem registered_register (r : Registry) (d : Definition) :
    (r.register d).1.registered = r.registered ∨ (r.register d).1.registered
      = r.registered.filter (·.1 != d.id) ++ [(d.id, r.instances.length)] := by
  unfold register
  split
  · exact .inl rfl
  · dsimp only
    split <;> exact .inr rfl

/-- Whoever is in force before a definition is so afterwards, perhaps by another instance. -/
theorem contains_register {r : Registry} {id : String} (h : r.contains id = true) (d : Definition) :
    (r.register d).1.contains id = true := by
  obtain ⟨p, hp, hid⟩ := contains_iff.mp h
  rw [contains_iff]
  rcases r.registered_register d with hr | hr
  · exact ⟨p, hr ▸ hp, hid⟩
  · rw [hr]
    by_cases hd : id = d.id
    · exact ⟨_, List.mem_append_right _ List.mem_cons_self, hd.symm⟩
    · refine ⟨p, List.mem_append_left _ (List.mem_filter.mpr ⟨hp, ?_⟩), hid⟩
      rw [bne_iff_ne, hid]
      exact hd

theorem watchers_detachAll_of_not {id : String} {p : String → Bool} (h : p id = false) (m : String)
    (b : Aspect) : ∀ (nodes : List String) (g : Graph Unit),
      (detachAll g id nodes).1.watchers m b p = g.watchers m b p := by
  intro nodes
  induction nodes with
  | nil => intro g; rfl
  | cons node rest ih =>
    intro g
    rw [detachAll, ih]
    exact g.watchers_detach_of_not node id h m b

theorem watchers_detachAll_self (id m : String) (b : Aspect) : ∀ (nodes : List String)
    (g : Graph Unit), (detachAll g id nodes).1.watchers m b (· == id)
      = if m ∈ nodes then [] else g.watchers m b (· == id) := by
  intro nodes
  induction nodes with
  | nil => intro g; rfl
  | cons node rest ih =>
    intro g
    rw [detachAll, ih, g.watchers_detach_self node id m b]
    by_cases hr : m ∈ rest
    · rw [if_pos hr, if_pos (List.mem_cons_of_mem _ hr)]
    · by_cases hn : node = m
      · rw [if_neg hr, if_pos hn, if_pos (hn ▸ List.mem_cons_self)]
      · have hout : m ∉ node :: rest := fun h => (List.mem_cons.mp h).elim (fun h => hn h.symm) hr
        rw [if_neg hr, if_neg hn, if_neg hout]

/-- A rule that is in force is taken out, with all its observers. -/
theorem deregister_eq {r : Registry} {g : Graph Unit} {id : String} (hh : r.host = some g)
    (hc : r.contains id = true) :
    (r.deregister id).1.registered = r.registered.filter (·.1 != id) ∧
      (r.deregister id).1.observed = r.observed.filter (·.1 != id) ∧
      (r.deregister id).1.host = some (detachAll g id (r.observedNodes id)).1 := by
  obtain ⟨n, hn⟩ := Option.isSome_iff_exists.mp hc
  unfold deregister
  simp only [hn, retire, modify, hh]
  exact ⟨trivial, trivial, trivial⟩

theorem deregister_unknown {r : Registry} {id : String} (hc : r.contains id = false) :
    (r.deregister id).1 = r := by
  unfold deregister
  rw [Option.isSome_eq_false_iff.mp hc |> Option.isNone_iff_eq_none.mp]

/-- A rule in force is attached to both aspects of the node. -/
theorem observe_eq {r : Registry} {g : Graph Unit} {node id : String} (hh : r.host = some g)
    (hc : r.contains id = true) :
    (r.observe node id).1.registered = r.registered ∧
      (r.observe node id).1.observed
        = (if r.observed.contains (id, node) then r.observed else r.observed ++ [(id, node)]) ∧
      (r.observe node id).1.host
        = some ((g.attach node .attribute ⟨id, ()⟩).attach node .property ⟨id, ()⟩) := by
  unfold observe
  simp [hc, hh]

theorem observe_unknown {r : Registry} {node id : String} (hc : r.contains id = false) :
    (r.observe node id).1 = r := by
  unfold observe
  simp [hc]

/-! ## Both tell the same -/

/-- A registry and its graph tell the same of all rules; `foreign` are the keys of others. -/
structure InStep (foreign : String → Prop) (r : Registry) (g : Graph Unit) : Prop where
  host : r.host = some g
  carried : ∀ id, ¬ foreign id → ∀ node a,
    (g.watchers node a (· == id)).length = if (id, node) ∈ r.observed then 1 else 0
  known : ∀ p ∈ r.observed, r.contains p.1 = true
  own : ∀ p ∈ r.registered, ¬ foreign p.1

namespace InStep

variable {foreign : String → Prop} {r : Registry} {g : Graph Unit}

theorem fresh (h : ∀ node a, ∀ o ∈ (g.vertex node).observers a, foreign o.key) :
    InStep foreign { host := some g } g where
  host := rfl
  carried := by
    intro id hid node a
    have hnil : g.watchers node a (· == id) = [] := by
      rw [Graph.watchers, List.filter_eq_nil_iff]
      intro o ho hk
      exact hid (beq_iff_eq.mp hk ▸ h node a o ho)
    rw [hnil]
    rfl
  known := fun p hp => absurd hp List.not_mem_nil
  own := fun p hp => absurd hp List.not_mem_nil

theorem register (h : InStep foreign r g) {d : Definition} (hd : ¬ foreign d.id) :
    InStep foreign (r.register d).1 g := by
  obtain ⟨hhost, hobs⟩ := r.register_keeps d
  refine ⟨hhost.trans h.host, ?_, ?_, ?_⟩
  · rw [hobs]
    exact h.carried
  · rw [hobs]
    exact fun p hp => contains_register (h.known p hp) d
  · intro p hp
    rcases r.registered_register d with hr | hr
    · exact h.own p (hr ▸ hp)
    · rw [hr] at hp
      rcases List.mem_append.mp hp with hp | hp
      · exact h.own p (List.mem_filter.mp hp).1
      · rw [List.mem_singleton.mp hp]
        exact hd

/-- A rule that is taken out observes nothing any more; of the others everything stays. -/
theorem deregister (h : InStep foreign r g) {id : String} (hc : r.contains id = true) :
    InStep foreign (r.deregister id).1 (detachAll g id (r.observedNodes id)).1 := by
  obtain ⟨hreg, hobs, hhost⟩ := deregister_eq h.host hc
  refine ⟨hhost, ?_, ?_, ?_⟩
  · intro key hkey node a
    have hcar := h.carried key hkey node a
    rw [hobs]
    by_cases hk : key = id
    · subst hk
      have hgone : (key, node) ∉ r.observed.filter (·.1 != key) := by simp [List.mem_filter]
      rw [watchers_detachAll_self, if_neg hgone]
      split
      · rfl
      · next hout => rw [hcar, if_neg fun hin => hout (mem_observedNodes.mpr hin)]
    · rw [watchers_detachAll_of_not (by simpa using Ne.symm hk), hcar]
      simp [List.mem_filter, hk]
  · intro p hp
    rw [hobs] at hp
    obtain ⟨hp, hne⟩ := List.mem_filter.mp hp
    obtain ⟨q, hq, hid⟩ := contains_iff.mp (h.known p hp)
    rw [contains_iff, hreg]
    exact ⟨q, List.mem_filter.mpr ⟨hq, hid ▸ hne⟩, hid⟩
  · intro p hp
    rw [hreg] at hp
    exact h.own p (List.mem_filter.mp hp).1

theorem observe (h : InStep foreign r g) (node : String) {id : String} (hc : r.contains id = true) :
    InStep foreign (r.observe node id).1
      ((g.attach node .attribute ⟨id, ()⟩).attach node .property ⟨id, ()⟩) := by
  obtain ⟨hreg, hobs, hhost⟩ := observe_eq h.host hc
  have hmem : ∀ p, p ∈ (r.observe node id).1.observed ↔ p ∈ r.observed ∨ p = (id, node) := by
    intro p
    rw [hobs]
    split
    · next hin =>
      refine ⟨.inl, fun hp => hp.elim (fun h => h) fun hp => ?_⟩
      exact hp ▸ List.contains_iff_mem.mp hin
    · rw [List.mem_append, List.mem_singleton]
  refine ⟨hhost, ?_, ?_, ?_⟩
  · intro key hkey m a
    have hcar := h.carried key hkey m a
    by_cases hk : key = id
    · subst hk
      rw [Graph.watchers_attach_self, Graph.watchers_attach_self]
      by_cases hm : node = m
      · subst hm
        rw [if_pos ((hmem _).mpr (.inr rfl))]
        cases a <;> simp
      · have hiff : (key, m) ∈ (r.observe node key).1.observed ↔ (key, m) ∈ r.observed := by
          rw [hmem]
          exact ⟨fun h => h.elim (fun h => h) fun h => absurd (congrArg Prod.snd h).symm hm, .inl⟩
        rw [if_neg fun h => hm h.1, if_neg fun h => hm h.1, hcar]
        simp only [hiff]
    · have hp : (fun x : String => x == key) id = false := by simpa using Ne.symm hk
      have hiff : (key, m) ∈ (r.observe node id).1.observed ↔ (key, m) ∈ r.observed := by
        rw [hmem]
        exact ⟨fun h => h.elim (fun h => h) fun h => absurd (congrArg Prod.fst h) hk, .inl⟩
      rw [Graph.watchers_attach_of_not _ _ _ _ hp, Graph.watchers_attach_of_not _ _ _ _ hp, hcar]
      simp only [hiff]
  · intro p hp
    have hsame : (r.observe node id).1.contains p.1 = r.contains p.1 := by
      unfold contains number?
      rw [hreg]
    rw [hsame]
    rcases (hmem p).mp hp with hp | rfl
    · exact h.known p hp
    · exact hc
  · rw [hreg]
    exact h.own

/-- What others do under keys of their own is of no concern. -/
theorem onHost (h : InStep foreign r g) {f : Graph Unit → Graph Unit}
    (hf : ∀ id, ¬ foreign id → ∀ node a,
      (f g).watchers node a (· == id) = g.watchers node a (· == id)) :
    InStep foreign (r.onHost f) (f g) where
  host := by rw [Registry.onHost, h.host]; rfl
  carried := by
    intro id hid node a
    rw [hf id hid]
    exact h.carried id hid node a
  known := h.known
  own := h.own

/-- **Whatever is done, the registry and its graph stay in step.** -/
theorem play (h : InStep foreign r g) {m : Move} (hm : m.Respects foreign) :
    ∃ g', InStep foreign (r.play m) g' := by
  have hne : ∀ {key id : String}, foreign key → ¬ foreign id → (key == id) = false := by
    intro key id hkey hid
    rw [beq_eq_false_iff_ne]
    rintro rfl
    exact hid hkey
  cases m with
  | register d => exact ⟨g, h.register hm⟩
  | deregister id =>
    cases hc : r.contains id with
    | true => exact ⟨_, h.deregister hc⟩
    | false =>
      have hsame : r.play (.deregister id) = r := deregister_unknown hc
      exact ⟨g, hsame.symm ▸ h⟩
  | observe node id =>
    cases hc : r.contains id with
    | true => exact ⟨_, h.observe node hc⟩
    | false =>
      have hsame : r.play (.observe node id) = r := observe_unknown hc
      exact ⟨g, hsame.symm ▸ h⟩
  | attach node a key =>
    exact ⟨_, h.onHost fun id hid => g.watchers_attach_of_not node a ⟨key, ()⟩ (hne hm hid)⟩
  | detach node key => exact ⟨_, h.onHost fun id hid => g.watchers_detach_of_not node key (hne hm hid)⟩
  | write node a name value =>
    exact ⟨_, h.onHost fun _ _ m b => g.watchers_write node a name value m b _⟩

theorem foldl_play {ms : List Move} : ∀ {r : Registry} {g : Graph Unit}, InStep foreign r g →
    (∀ m ∈ ms, m.Respects foreign) → ∃ g', InStep foreign (ms.foldl Registry.play r) g' := by
  induction ms with
  | nil => intro r g h _; exact ⟨g, h⟩
  | cons m rest ih =>
    intro r g h hm
    obtain ⟨g', h'⟩ := h.play (hm m List.mem_cons_self)
    exact ih h' fun n hn => hm n (List.mem_cons_of_mem _ hn)

end InStep

/-! ## All together -/

/-- What a registry and a graph tell of a rule. -/
structure Matches (r : Registry) (g : Graph Unit) (id : String) : Prop where
  attributes : ∀ node, g.Carries node .attribute id ↔ node ∈ r.observedNodes id
  properties : ∀ node, g.Carries node .property id ↔ node ∈ r.observedNodes id
  single : ∀ node a, (g.watchers node a (· == id)).length ≤ 1
  registered : r.observedNodes id ≠ [] → r.contains id = true

theorem InStep.matches {foreign : String → Prop} {r : Registry} {g : Graph Unit}
    (h : InStep foreign r g) {id : String} (hid : ¬ foreign id) : r.Matches g id := by
  have hcarries : ∀ node a, g.Carries node a id ↔ node ∈ r.observedNodes id := by
    intro node a
    have hlen := h.carried id hid node a
    rw [Graph.carries_iff, mem_observedNodes, ← List.length_pos_iff, hlen]
    split
    · next hin => exact ⟨fun _ => hin, fun _ => Nat.one_pos⟩
    · next hout => exact ⟨fun h => absurd h (Nat.lt_irrefl 0), fun h => absurd h hout⟩
  refine ⟨fun node => hcarries node _, fun node => hcarries node _, fun node a => ?_, fun hne => ?_⟩
  · rw [h.carried id hid node a]
    split
    · exact Nat.le_refl 1
    · exact Nat.zero_le 1
  · obtain ⟨node, hnode⟩ := List.exists_mem_of_ne_nil _ hne
    exact h.known _ (mem_observedNodes.mp hnode)

/-- A rule that is not in force is observed nowhere. -/
theorem InStep.not_carries {foreign : String → Prop} {r : Registry} {g : Graph Unit}
    (h : InStep foreign r g) {id : String} (hid : ¬ foreign id) (hc : r.contains id = false)
    (node : String) (a : Aspect) : ¬ g.Carries node a id := by
  intro hcar
  have hlen := h.carried id hid node a
  rw [Graph.carries_iff, ← List.length_pos_iff, hlen] at hcar
  split at hcar
  · next hin =>
    rw [h.known _ hin] at hc
    cases hc
  · exact Nat.lt_irrefl 0 hcar

theorem contains_deregister (r : Registry) (id : String) : (r.deregister id).1.contains id = false := by
  cases hc : r.contains id with
  | false => rw [deregister_unknown hc, hc]
  | true =>
    obtain ⟨n, hn⟩ := Option.isSome_iff_exists.mp hc
    have hreg : (r.deregister id).1.registered = r.registered.filter (·.1 != id) := by
      unfold deregister
      simp only [hn, retire, modify]
      split <;> rfl
    rw [Bool.eq_false_iff, Ne, contains_iff, hreg]
    rintro ⟨p, hp, hid⟩
    simpa [hid] using (List.mem_filter.mp hp).2

/-- A move about one rule leaves alone whoever observes under another key, and in which order. -/
theorem watchers_play {foreign : String → Prop} {r : Registry} {g : Graph Unit}
    (h : InStep foreign r g) {m : Move} {id : String} (hm : m.rule? = some id) :
    ∃ g', (r.play m).host = some g' ∧
      ∀ node a, g'.watchers node a (· != id) = g.watchers node a (· != id) := by
  have hself : (fun x : String => x != id) id = false := by simp
  cases m with
  | register d =>
    exact ⟨g, (r.register_keeps d).1.trans h.host, fun _ _ => rfl⟩
  | deregister key =>
    cases hm
    cases hc : r.contains id with
    | false => exact ⟨g, (congrArg Registry.host (deregister_unknown hc)).trans h.host, fun _ _ => rfl⟩
    | true =>
      exact ⟨_, (deregister_eq h.host hc).2.2,
        fun node a => watchers_detachAll_of_not (p := (· != id)) hself node a _ g⟩
  | observe n key =>
    cases hm
    cases hc : r.contains id with
    | false => exact ⟨g, (congrArg Registry.host (observe_unknown hc)).trans h.host, fun _ _ => rfl⟩
    | true =>
      refine ⟨_, (observe_eq h.host hc).2.2, fun node a => ?_⟩
      rw [Graph.watchers_attach_of_not (p := (· != id)) _ _ _ _ hself,
        Graph.watchers_attach_of_not (p := (· != id)) _ _ _ _ hself]
  | attach n a key => cases hm
  | detach n key => cases hm
  | write n a name value => cases hm

/-- **Whatever is done to a registry, a node has observers under a rule's id exactly if the registry has
it that the rule observes the node: one at each aspect, and only for a rule in force. A rule that is
removed leaves none behind, one that is replaced leaves all, and nobody else is touched.** -/
theorem registry_matches_graph {foreign : String → Prop} {g₀ : Graph Unit}
    (h₀ : ∀ node a, ∀ o ∈ (g₀.vertex node).observers a, foreign o.key) {ms : List Move}
    (hm : ∀ m ∈ ms, m.Respects foreign) :
    ∃ g, (ms.foldl play { host := some g₀ }).host = some g ∧
      (∀ id, ¬ foreign id → (ms.foldl play { host := some g₀ }).Matches g id) ∧
      (∀ id, ¬ foreign id → ∃ g',
        ((ms.foldl play { host := some g₀ }).deregister id).1.host = some g' ∧
          ∀ node a, ¬ g'.Carries node a id) ∧
      (∀ d, ((ms.foldl play { host := some g₀ }).register d).1.host = some g ∧
        ∀ id, ((ms.foldl play { host := some g₀ }).register d).1.observedNodes id
          = (ms.foldl play { host := some g₀ }).observedNodes id) ∧
      ∀ m id, m.rule? = some id → ∃ g',
        ((ms.foldl play { host := some g₀ }).play m).host = some g' ∧
          ∀ node a, g'.watchers node a (· != id) = g.watchers node a (· != id) := by
  obtain ⟨g, h⟩ := (InStep.fresh h₀).foldl_play hm
  refine ⟨g, h.host, fun id hid => h.matches hid, fun id hid => ?_, fun d => ?_,
    fun m id hid => watchers_play h hid⟩
  · have hd : Move.Respects foreign (.deregister id) := trivial
    obtain ⟨g', h'⟩ := h.play hd
    exact ⟨g', h'.host, h'.not_carries hid (contains_deregister _ id)⟩
  · obtain ⟨hhost, hobs⟩ := register_keeps (ms.foldl play { host := some g₀ }) d
    exact ⟨hhost.trans h.host, observedNodes_congr hobs⟩

/-- A graph that somebody else watches. -/
def probed : Graph Unit := ({} : Graph Unit).attach "n" .attribute ⟨"probe", ()⟩

theorem key_of_probed (node : String) (a : Aspect) :
    ∀ o ∈ (probed.vertex node).observers a, o.key = "probe" := by
  intro o ho
  rw [probed, Graph.attach, Graph.update, Graph.vertex_setVertex] at ho
  split at ho
  · rw [Vertex.observers_attach] at ho
    split at ho
    · rcases List.mem_append.mp ho with ho | ho
      · cases a <;> cases (List.mem_filter.mp ho).1
      · rw [List.mem_singleton.mp ho]
    · cases a <;> cases ho
  · cases a <;> cases ho

/-- A rule that is put in force, observes a node, is replaced, and observes another. -/
def moving : List Move :=
  let d : Definition :=
    { id := "r1", label := "L", condition := "true", action := "1", priority := 0
      evaluationDelay := 0, executionDelay := 0, refractoryPeriod := 0, parallel := false
      clearFacts := false, timeout := none, validity := .always }
  [.register d, .observe "n" "r1", .attach "n" .property "probe", .register d, .observe "m" "r1"]

theorem moving_respects : ∀ m ∈ moving, m.Respects (· = "probe") := by
  simp [moving, Move.Respects]

/-- It is still attached to the first node, and to none once it is removed. -/
theorem moving_matches : ∃ g, (moving.foldl play { host := some probed }).host = some g ∧
    g.Carries "n" .attribute "r1" ∧ g.Carries "n" .property "r1" ∧ g.Carries "m" .property "r1" ∧
      ∃ g', ((moving.foldl play { host := some probed }).deregister "r1").1.host = some g' ∧
        ¬ g'.Carries "n" .attribute "r1" := by
  obtain ⟨g, hg, hmatch, hgone, -⟩ := @registry_matches_graph (· = "probe") probed key_of_probed
    moving moving_respects
  have hm := hmatch "r1" (by decide)
  have hn : "n" ∈ (moving.foldl play { host := some probed }).observedNodes "r1" :=
    mem_observedNodes.mpr (by decide +kernel)
  have hl : "m" ∈ (moving.foldl play { host := some probed }).observedNodes "r1" :=
    mem_observedNodes.mpr (by decide +kernel)
  obtain ⟨g', hg', hnone⟩ := hgone "r1" (by decide)
  exact ⟨g, hg, (hm.attributes "n").mpr hn, (hm.properties "n").mpr hn, (hm.properties "m").mpr hl,
    g', hg', hnone "n" .attribute⟩

end Registry

end ReactiveRules
