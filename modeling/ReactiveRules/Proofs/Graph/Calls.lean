import Mathlib.Data.List.Induction
import ReactiveRules.Proofs.Graph.Watchers

/-!
# `Proofs/Graph/Calls.lean` — a graph after any moves, and whom its writers tell

Observers come and go, and values are written. Whoever writes goes on to notify the observers that the write
found, one at each of its turns; in between anything else can be done to the graph, also by the observers
themselves. A `Traffic` is a graph with the calls that have written to it.

**What a graph holds can be read off its moves**: the observers of an aspect are the attachments that nothing
has ousted since, in the order they were made, and a value is the one stored last. **Every call tells the
observers that its write found, in their order, one a turn, until it is given up** (`Traffic.seen_and_told`).

`Traffic.observers_play` and `Traffic.read?_play` say what one move does; everything about a run comes from
them by induction from the last move. An engine is a traffic to its graph (`Engine.Steps.conducts`).
-/

set_option autoImplicit false

namespace ReactiveRules

variable {ο : Type}

/-! ## Calls -/

/-- What an observer is told. -/
structure Notification (ο : Type) where
  observer : Observer ο
  node : String
  aspect : Aspect
  name : String
  value : Json

/-- A call that has written, and notifies observers. -/
structure WriteCall (ο : Type) where
  node : String
  aspect : Aspect
  name : String
  value : Json
  told : List (Notification ο) := []
  remaining : List (Observer ο)
  /-- Its caller has gone away. -/
  givenUp : Bool := false

namespace WriteCall

/-- What the call tells an observer. -/
def note (c : WriteCall ο) (o : Observer ο) : Notification ο := ⟨o, c.node, c.aspect, c.name, c.value⟩

/-- The call notifies its next observer, if there is one and the call is not given up. -/
def turn (c : WriteCall ο) : WriteCall ο :=
  if c.givenUp then c
  else
    match c.remaining with
    | [] => c
    | o :: rest => { c with told := c.told ++ [c.note o], remaining := rest }

/-- A call that has just written, so many turns later. -/
def later (c : WriteCall ο) (turns : Nat) (givenUp : Bool) : WriteCall ο :=
  { c with told := (c.remaining.take turns).map c.note, remaining := c.remaining.drop turns, givenUp }

theorem turn_later (c : WriteCall ο) (n : Nat) : (c.later n false).turn = c.later (n + 1) false := by
  unfold turn later
  simp only [Bool.false_eq_true, if_false]
  cases hdrop : c.remaining.drop n with
  | nil =>
    have hend : c.remaining.length ≤ n := List.drop_eq_nil_iff.mp hdrop
    rw [List.take_of_length_le hend, List.take_of_length_le (Nat.le_succ_of_le hend),
      List.drop_of_length_le (Nat.le_succ_of_le hend)]
  | cons o rest =>
    have hat : c.remaining[n]? = some o := by rw [← List.head?_drop, hdrop]; rfl
    have hrest : c.remaining.drop (n + 1) = rest := by
      rw [← List.drop_drop, hdrop]
      rfl
    rw [hrest, List.take_add_one, hat, List.map_append]
    rfl

theorem note_turn (c : WriteCall ο) (o : Observer ο) : c.turn.note o = c.note o := by
  unfold turn
  split
  · rfl
  · split <;> rfl

theorem told_turn (c : WriteCall ο) : c.told ⊆ c.turn.told := by
  unfold turn
  split
  · exact List.Subset.refl _
  · split
    · exact List.Subset.refl _
    · exact List.subset_append_left _ _

end WriteCall

/-! ## Moves -/

/-- What is done to a graph, and to the calls that have written to it. -/
inductive GraphMove (ο : Type) where
  | attach (node : String) (a : Aspect) (o : Observer ο)
  | detach (node key : String)
  | write (node : String) (a : Aspect) (name : String) (value : Json)
  /-- The call of the write `k` takes a turn. -/
  | proceed (k : Nat)
  | giveUp (k : Nat)

namespace GraphMove

/-- The node that a move is about. -/
def node? : GraphMove ο → Option String
  | .attach node _ _ | .detach node _ | .write node _ _ _ => some node
  | _ => none

/-- The observer that a move attaches to an aspect of a node. -/
def attaches? (node : String) (a : Aspect) : GraphMove ο → Option (Observer ο)
  | .attach n b o => if n = node ∧ b = a then some o else none
  | _ => none

/-- Is an observer with that key, if it is attached there, not so any more after the move? One that is
attached anew loses its place. -/
def ousts (node : String) (a : Aspect) (key : String) : GraphMove ο → Bool
  | .attach n b o => n = node ∧ b = a ∧ o.key = key
  | .detach n k => n = node ∧ k = key
  | _ => false

/-- The value that a move stores under a name. -/
def stores? (node : String) (a : Aspect) (name : String) : GraphMove ο → Option Json
  | .write n b x value => if n = node ∧ b = a ∧ x = name then some value else none
  | _ => none

def isWrite : GraphMove ο → Bool
  | .write .. => true
  | _ => false

def isTurnOf (k : Nat) : GraphMove ο → Bool
  | .proceed j => j = k
  | _ => false

def givesUp (k : Nat) : GraphMove ο → Bool
  | .giveUp j => j = k
  | _ => false

/-- The attachments to an aspect of a node that no later move ousts, in the order of the moves. -/
def standing (node : String) (a : Aspect) : List (GraphMove ο) → List (Observer ο)
  | [] => []
  | m :: rest =>
    match m.attaches? node a with
    | none => standing node a rest
    | some o => if rest.any (·.ousts node a o.key) then standing node a rest else o :: standing node a rest

/-- The value stored last under a name. -/
def stored? (node : String) (a : Aspect) (name : String) (ms : List (GraphMove ο)) : Option Json :=
  (ms.filterMap (·.stores? node a name)).getLast?

/-- The turns that the call of the write `k` takes before it is given up. -/
def turnsOf (k : Nat) (ms : List (GraphMove ο)) : Nat :=
  (ms.takeWhile fun m => !m.givesUp k).countP (·.isTurnOf k)

variable {node : String} {a : Aspect}

theorem attaches?_ousts {m : GraphMove ο} {o : Observer ο} (h : m.attaches? node a = some o) :
    m.ousts node a o.key = true := by
  cases m with
  | attach n b o' =>
    simp only [attaches?, Option.ite_none_right_eq_some] at h
    obtain ⟨⟨rfl, rfl⟩, ho⟩ := h
    cases ho
    simp [ousts]
  | _ => cases h

/-- One more move ousts some and attaches at most one, behind the others. -/
theorem standing_concat (ms : List (GraphMove ο)) (m : GraphMove ο) :
    standing node a (ms ++ [m]) = (standing node a ms).filter (fun o => !m.ousts node a o.key)
      ++ (m.attaches? node a).toList := by
  induction ms with
  | nil =>
    show standing node a [m] = _
    unfold standing
    cases m.attaches? node a <;> rfl
  | cons x rest ih =>
    rw [List.cons_append, standing, standing]
    cases x.attaches? node a with
    | none => exact ih
    | some o =>
      simp only [List.any_append, List.any_cons, List.any_nil, Bool.or_false]
      by_cases hrest : (rest.any (·.ousts node a o.key)) = true
      · rw [hrest, Bool.true_or]
        exact ih
      · rw [Bool.not_eq_true] at hrest
        rw [hrest, Bool.false_or, if_neg Bool.false_ne_true, List.filter_cons]
        cases m.ousts node a o.key with
        | true => exact ih
        | false =>
          simp only [Bool.false_eq_true, if_false, Bool.not_false, if_true, List.cons_append]
          rw [ih]

/-- Whatever stands under a key that a move ousts was attached before it, and is gone. -/
theorem nodup_standing (ms : List (GraphMove ο)) : ((standing node a ms).map (·.key)).Nodup := by
  induction ms using List.reverseRecOn with
  | nil => exact List.nodup_nil
  | append_singleton ms m ih =>
    rw [standing_concat, List.map_append]
    refine List.nodup_append.mpr ⟨ih.sublist (List.filter_sublist.map _), ?_, ?_⟩
    · cases m.attaches? node a with
      | none => exact List.nodup_nil
      | some o => exact List.pairwise_singleton _ _
    · intro key hkey key' hkey' hsame
      obtain ⟨o, ho, rfl⟩ := List.mem_map.mp hkey
      obtain ⟨o', ho', rfl⟩ := List.mem_map.mp hkey'
      have housts := attaches?_ousts (Option.mem_toList.mp ho')
      have hkept := (List.mem_filter.mp ho).2
      rw [hsame, housts] at hkept
      exact Bool.false_ne_true hkept

theorem stored?_concat (name : String) (ms : List (GraphMove ο)) (m : GraphMove ο) :
    stored? node a name (ms ++ [m]) = (m.stores? node a name).or (stored? node a name ms) := by
  unfold stored?
  rw [List.filterMap_append]
  cases hm : m.stores? node a name with
  | none => simp [hm]
  | some value => simp [hm]

/-- A move that neither attaches nor ousts anybody. -/
theorem unmoved {m : GraphMove ο} (hattach : m.attaches? node a = none)
    (houst : ∀ key, m.ousts node a key = false) (os : List (Observer ο)) :
    os.filter (fun o => !m.ousts node a o.key) ++ (m.attaches? node a).toList = os := by
  rw [hattach, Option.toList_none, List.append_nil, List.filter_eq_self]
  intro o _
  rw [houst, Bool.not_false]

end GraphMove

open GraphMove

/-! ## One move -/

namespace Vertex

theorem values_withValues (v : Vertex ο) (a b : Aspect) (xs : List (String × Json)) :
    (v.withValues a xs).values b = if a = b then xs else v.values b := by
  cases a <;> cases b <;> rfl

theorem values_withObservers (v : Vertex ο) (a b : Aspect) (os : List (Observer ο)) :
    (v.withObservers a os).values b = v.values b := by
  cases a <;> cases b <;> rfl

end Vertex

/-- A graph, and the calls that have written to it, oldest first. -/
structure Traffic (ο : Type) where
  graph : Graph ο := {}
  calls : List (WriteCall ο) := []

namespace Traffic

def play (T : Traffic ο) : GraphMove ο → Traffic ο
  | .attach node a o => { T with graph := T.graph.attach node a o }
  | .detach node key => { T with graph := (T.graph.detach node key).1 }
  | .write node a name value =>
    let (graph, remaining) := T.graph.write node a name value
    { graph, calls := T.calls ++ [{ node, aspect := a, name, value, remaining }] }
  | .proceed k => { T with calls := T.calls.modify k WriteCall.turn }
  | .giveUp k => { T with calls := T.calls.modify k fun c => { c with givenUp := true } }

def after (T : Traffic ο) (ms : List (GraphMove ο)) : Traffic ο := ms.foldl play T

variable (T : Traffic ο) (m : GraphMove ο) (node : String) (a : Aspect)

theorem vertex_play (h : m.node? ≠ some node) :
    (T.play m).graph.vertex node = T.graph.vertex node := by
  cases m with
  | proceed k => rfl
  | giveUp k => rfl
  | _ =>
    exact (Graph.vertex_setVertex _ _ _ _).trans (if_neg fun hn => h (congrArg some hn))

/-- A move ousts some observers and attaches at most one, behind the others. -/
theorem observers_play : ((T.play m).graph.vertex node).observers a
    = ((T.graph.vertex node).observers a).filter (fun o => !m.ousts node a o.key)
      ++ (m.attaches? node a).toList := by
  by_cases hnode : m.node? = some node
  · cases m with
    | proceed k => cases hnode
    | giveUp k => cases hnode
    | attach n b o =>
      obtain rfl : n = node := Option.some.inj hnode
      show ((T.graph.attach n b o).vertex n).observers a = _
      rw [Graph.attach, Graph.update, Graph.vertex_setVertex, if_pos rfl, Vertex.observers_attach]
      by_cases hb : b = a
      · simp only [ousts, attaches?, hb, true_and, and_self, if_true, Option.toList_some]
        congr 1
        refine List.filter_congr fun x _ => ?_
        by_cases hx : x.key = o.key
        · simp [hx]
        · simp [hx, Ne.symm hx]
      · rw [if_neg hb, unmoved] <;> simp [ousts, attaches?, hb]
    | detach n key =>
      obtain rfl : n = node := Option.some.inj hnode
      show ((T.graph.detach n key).1.vertex n).observers a = _
      rw [Graph.detach, Graph.vertex_setVertex, if_pos rfl, Vertex.observers_detach]
      simp only [ousts, attaches?, true_and, Option.toList_none, List.append_nil]
      refine List.filter_congr fun x _ => ?_
      by_cases hx : x.key = key
      · simp [hx]
      · simp [hx, Ne.symm hx]
    | write n b name value =>
      obtain rfl : n = node := Option.some.inj hnode
      show ((T.graph.write n b name value).1.vertex n).observers a = _
      rw [Graph.write, Graph.update, Graph.vertex_setVertex, if_pos rfl, Vertex.store,
        Vertex.observers_withValues, unmoved rfl fun _ => rfl]
  · rw [T.vertex_play m node hnode]
    symm
    cases m with
    | proceed k => exact unmoved rfl (fun _ => rfl) _
    | giveUp k => exact unmoved rfl (fun _ => rfl) _
    | _ =>
      have hn : _ ≠ node := fun hn => hnode (congrArg some hn)
      refine unmoved ?_ (fun key => ?_) _ <;> simp [attaches?, ousts, hn]

/-- Of the values a move changes at most one. -/
theorem read?_play (name : String) : (T.play m).graph.read? node a name
    = (m.stores? node a name).or (T.graph.read? node a name) := by
  by_cases hnode : m.node? = some node
  · cases m with
    | proceed k => cases hnode
    | giveUp k => cases hnode
    | attach n b o =>
      obtain rfl : n = node := Option.some.inj hnode
      show (T.graph.attach n b o).read? n a name = T.graph.read? n a name
      rw [Graph.attach, Graph.update, Graph.read?, Graph.vertex_setVertex, if_pos rfl, Vertex.attach,
        Vertex.values_withObservers, Graph.read?]
    | detach n key =>
      obtain rfl : n = node := Option.some.inj hnode
      show (T.graph.detach n key).1.read? n a name = T.graph.read? n a name
      rw [Graph.detach, Graph.read?, Graph.vertex_setVertex, if_pos rfl, Vertex.detach,
        Vertex.values_withObservers, Vertex.detach, Vertex.values_withObservers, Graph.read?]
    | write n b x value =>
      obtain rfl : n = node := Option.some.inj hnode
      show (T.graph.write n b x value).1.read? n a name = _
      rw [Graph.write, Graph.update, Graph.read?, Graph.vertex_setVertex, if_pos rfl, Vertex.store,
        Vertex.values_withValues]
      by_cases hb : b = a
      · rw [if_pos hb, find?_put, hb]
        by_cases hx : x = name
        · simp [stores?, hx]
        · simp [stores?, hx, Graph.read?]
      · simp [stores?, hb, Graph.read?]
  · unfold Graph.read?
    rw [T.vertex_play m node hnode]
    cases m with
    | write n b x value =>
      have hn : n ≠ node := fun hn => hnode (congrArg some hn)
      simp [stores?, hn]
    | _ => rfl

/-! ## Calls under way -/

/-- What a move is to the call of the write `k`. -/
def heed (k : Nat) (c : WriteCall ο) : GraphMove ο → WriteCall ο
  | .proceed j => if j = k then c.turn else c
  | .giveUp j => if j = k then { c with givenUp := true } else c
  | _ => c

variable {T m} {k : Nat} {c : WriteCall ο}

theorem calls_play (h : T.calls[k]? = some c) : (T.play m).calls[k]? = some (heed k c m) := by
  cases m with
  | attach n b o => exact h
  | detach n key => exact h
  | write n b name value =>
    show (T.calls ++ _)[k]? = some c
    rw [List.getElem?_append_left (List.getElem?_eq_some_iff.mp h).1]
    exact h
  | proceed j =>
    show (T.calls.modify j WriteCall.turn)[k]? = _
    rw [List.getElem?_modify, h]
    rfl
  | giveUp j =>
    show (T.calls.modify j _)[k]? = _
    rw [List.getElem?_modify, h]
    rfl

theorem calls_after (h : T.calls[k]? = some c) (ms : List (GraphMove ο)) :
    (T.after ms).calls[k]? = some (ms.foldl (heed k) c) := by
  induction ms generalizing T c with
  | nil => exact h
  | cons m rest ih => exact ih (calls_play h)

/-- Nobody is untold. -/
theorem told_heed (k : Nat) (c : WriteCall ο) (m : GraphMove ο) : c.told ⊆ (heed k c m).told := by
  cases m with
  | proceed j =>
    rw [heed]
    split
    · exact c.told_turn
    · exact List.Subset.refl _
  | giveUp j =>
    rw [heed]
    split <;> exact List.Subset.refl _
  | _ => exact List.Subset.refl _

/-- A call that has been given up stays as it is. -/
theorem foldl_heed_givenUp (c : WriteCall ο) (n : Nat) (ms : List (GraphMove ο)) :
    ms.foldl (heed k) (c.later n true) = c.later n true := by
  induction ms with
  | nil => rfl
  | cons m rest ih =>
    have hstill : heed k (c.later n true) m = c.later n true := by
      cases m with
      | proceed j => exact ite_self _
      | giveUp j => exact ite_self _
      | _ => rfl
    rw [List.foldl_cons, hstill, ih]

/-- The call goes on at its turns, until it is given up. -/
theorem foldl_heed (c : WriteCall ο) (n : Nat) (ms : List (GraphMove ο)) :
    ms.foldl (heed k) (c.later n false) = c.later (n + turnsOf k ms) (ms.any (·.givesUp k)) := by
  induction ms generalizing n with
  | nil => rfl
  | cons m rest ih =>
    rw [List.foldl_cons]
    unfold turnsOf at ih ⊢
    by_cases hgone : m.givesUp k = true
    · have hleft : heed k (c.later n false) m = c.later n true := by
        cases m with
        | giveUp j => exact if_pos (of_decide_eq_true hgone)
        | _ => cases hgone
      rw [hleft, foldl_heed_givenUp, List.takeWhile_cons, List.any_cons, hgone]
      rfl
    · rw [Bool.not_eq_true] at hgone
      rw [List.takeWhile_cons, List.any_cons, hgone, Bool.not_false, if_pos rfl, Bool.false_or,
        List.countP_cons]
      by_cases hturn : m.isTurnOf k = true
      · have hon : heed k (c.later n false) m = c.later (n + 1) false := by
          cases m with
          | proceed j => exact (if_pos (of_decide_eq_true hturn)).trans (c.turn_later n)
          | _ => cases hturn
        rw [hon, ih, hturn, if_pos rfl]
        congr 1
        omega
      · rw [Bool.not_eq_true] at hturn
        have hother : heed k (c.later n false) m = c.later n false := by
          cases m with
          | proceed j => exact if_neg (of_decide_eq_false hturn)
          | giveUp j => exact if_neg (of_decide_eq_false hgone)
          | _ => rfl
        rw [hother, ih, hturn]
        rfl

/-! ## Runs -/

theorem after_append (T : Traffic ο) (ms ms' : List (GraphMove ο)) :
    T.after (ms ++ ms') = (T.after ms).after ms' := List.foldl_append

theorem observers_after (ms : List (GraphMove ο)) (node : String) (a : Aspect) :
    ((({} : Traffic ο).after ms).graph.vertex node).observers a = standing node a ms := by
  induction ms using List.reverseRecOn with
  | nil => cases a <;> rfl
  | append_singleton ms m ih =>
    rw [after_append, standing_concat, ← ih]
    exact observers_play _ m node a

theorem read?_after (ms : List (GraphMove ο)) (node : String) (a : Aspect) (name : String) :
    (({} : Traffic ο).after ms).graph.read? node a name = stored? node a name ms := by
  induction ms using List.reverseRecOn with
  | nil => cases a <;> rfl
  | append_singleton ms m ih =>
    rw [after_append, stored?_concat, ← ih]
    exact read?_play _ m node a name

theorem length_calls (ms : List (GraphMove ο)) :
    (({} : Traffic ο).after ms).calls.length = ms.countP (·.isWrite) := by
  induction ms using List.reverseRecOn with
  | nil => rfl
  | append_singleton ms m ih =>
    rw [after_append, List.countP_append, ← ih]
    cases m with
    | write n b name value => exact List.length_append
    | proceed k => exact List.length_modify _ _ _
    | giveUp k => exact List.length_modify _ _ _
    | _ => rfl

/-- What has become of the call of a write. -/
theorem call_after (before rest : List (GraphMove ο)) (node : String) (a : Aspect) (name : String)
    (value : Json) :
    (({} : Traffic ο).after (before ++ .write node a name value :: rest)).calls[before.countP (·.isWrite)]?
      = some (({ node, aspect := a, name, value, remaining := standing node a before } : WriteCall ο).later
          (turnsOf (before.countP (·.isWrite)) rest)
          (rest.any (·.givesUp (before.countP (·.isWrite))))) := by
  have hbegun : ((({} : Traffic ο).after before).play (.write node a name value)).calls[before.countP
      (·.isWrite)]? = some (WriteCall.later
        { node, aspect := a, name, value, remaining := standing node a before } 0 false) := by
    show ((({} : Traffic ο).after before).calls ++ [_])[_]? = _
    rw [← length_calls before, List.getElem?_concat_length, ← observers_after before node a]
    rfl
  rw [after_append]
  exact (calls_after hbegun rest).trans (congrArg some ((foldl_heed _ 0 rest).trans (by rw [Nat.zero_add])))

/-- Detaching takes away the observers with a key at both aspects, and answers how many they are. -/
theorem detach_count (g : Graph ο) (node key : String) : (g.detach node key).2
    = ((g.vertex node).observers .attribute).countP (·.key == key)
      + ((g.vertex node).observers .property).countP (·.key == key) := by
  have hsplit : ∀ os : List (Observer ο),
      os.length = os.countP (·.key == key) + (os.filter (·.key != key)).length := fun os => by
    rw [← List.countP_eq_length_filter, List.length_eq_countP_add_countP (·.key == key)]
    congr 2
    funext o
    by_cases ho : o.key = key <;> simp [ho]
  have hattribute := hsplit ((g.vertex node).observers .attribute)
  have hproperty := hsplit ((g.vertex node).observers .property)
  show ((g.vertex node).observers .attribute).length + ((g.vertex node).observers .property).length
    - ((((g.vertex node).observers .attribute).filter (·.key != key)).length
      + (((g.vertex node).observers .property).filter (·.key != key)).length) = _
  omega

/-- **A graph is what its moves have made of it, and its calls tell what they wrote to whom they found.**
After any moves, in whatever order calls take their turns between them: the observers of an aspect are the
attachments that nothing has ousted since, in the order they were made, and no two have the same key; a value
is the one stored last. Detaching a key takes away the observers with that key from the node, at both aspects,
and answers their number. The call of a write has told the observers that stood at the moment of the write, in
their order, each once, as many of them as it has had turns before it was given up; it told them what was
written. A move is about one node at most and leaves the others as they are; it changes values only where it
stores one, and observers only where it ousts or attaches one. -/
theorem seen_and_told (ms : List (GraphMove ο)) :
    let T := ({} : Traffic ο).after ms
    (∀ node a, (T.graph.vertex node).observers a = standing node a ms ∧
      ((standing node a ms).map (·.key)).Nodup) ∧
    (∀ node a name, T.graph.read? node a name = stored? node a name ms) ∧
    (∀ node key,
      (T.graph.detach node key).2 = ((T.graph.vertex node).observers .attribute).countP (·.key == key)
        + ((T.graph.vertex node).observers .property).countP (·.key == key) ∧
      ∀ a, ((T.graph.detach node key).1.vertex node).observers a
        = ((T.graph.vertex node).observers a).filter (·.key != key)) ∧
    T.calls.length = ms.countP (·.isWrite) ∧
    (∀ before node a name value rest, ms = before ++ .write node a name value :: rest →
      let k := before.countP (·.isWrite)
      ∃ c, T.calls[k]? = some c ∧ c.told = ((standing node a before).take (turnsOf k rest)).map
        fun o => ⟨o, node, a, name, value⟩) ∧
    ∀ m node,
      (m.node? ≠ some node → (T.play m).graph.vertex node = T.graph.vertex node) ∧
      (∀ a name, m.stores? node a name = none →
        (T.play m).graph.read? node a name = T.graph.read? node a name) ∧
      ∀ a, m.attaches? node a = none → (∀ key, m.ousts node a key = false) →
        ((T.play m).graph.vertex node).observers a = (T.graph.vertex node).observers a := by
  intro T
  refine ⟨fun node a => ⟨observers_after ms node a, nodup_standing ms⟩, read?_after ms,
    fun node key => ⟨detach_count T.graph node key, fun a => ?_⟩, length_calls ms, ?_, fun m node =>
    ⟨T.vertex_play m node, fun a name hnone => ?_, fun a hattach houst => ?_⟩⟩
  · rw [Graph.detach, Graph.vertex_setVertex, if_pos rfl, Vertex.observers_detach]
  · rintro before node a name value rest rfl
    exact ⟨_, call_after before rest node a name value, rfl⟩
  · rw [read?_play, hnone, Option.none_or]
  · rw [observers_play, unmoved hattach houst]

/-- Who is detached while a call is under way is told all the same, and who comes later is not. -/
example : ((({} : Traffic Unit).after [.attach "n" .attribute ⟨"k", ()⟩, .write "n" .attribute "x" .null,
    .detach "n" "k", .attach "n" .attribute ⟨"l", ()⟩, .proceed 0, .proceed 0]).calls.map
      fun c => c.told.map (·.observer.key)) = [["k"]] := by decide

end Traffic

end ReactiveRules
