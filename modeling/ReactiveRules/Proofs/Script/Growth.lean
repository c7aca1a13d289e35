import ReactiveRules.Script.Tree

/-!
# `Proofs/Script/Growth.lean` — operands that grow in place

The tokens of a script grow its tree on a stack of unfinished trees. An expression that reads by itself grows
above the group that stands for the whole script; among other tokens it grows above whatever is unfinished
there. **What it comes to is the same in both** (`growAll_place`), provided that it is no sequence: the comma of
a sequence would be taken for one of those around it.

The two growths are compared step by step. Either both stacks are the same above the place where the expression
belongs (`Alongside`), or it has become a sequence for good (`Sequenced`).
-/

set_option autoImplicit false

namespace ReactiveRules.Script

variable {node g : Tree} {stack stack' : Stack}

/-- Only what the first of two steps gives goes into the second. -/
theorem ok_of_bind {α β : Type} {x : Except Fault α} {f : α → Except Fault β} {b : β}
    (h : x >>= f = .ok b) : ∃ a, x = .ok a ∧ f a = .ok b := by
  cases x with
  | error e => cases h
  | ok a => exact ⟨a, rfl, h⟩

/-! ## Single operators -/

theorem Operator.eq_group {o : Operator} (h : o.isGroup = true) : o = .group := by
  cases o with
  | group => rfl
  | _ => cases h

theorem Operator.isSequence_group {o : Operator} (h : o.isGroup = true) : o.isSequence = false := by
  rw [eq_group h]
  rfl

theorem Operator.isGroup_sequence {o : Operator} (h : o.isSequence = true) : o.isGroup = false := by
  cases o with
  | tuple | chain => rfl
  | _ => cases h

/-- A sequence binds weaker than a group. -/
theorem Operator.precedence_lt_group {o p : Operator} (ho : o.isSequence = true)
    (hp : p.isGroup = true) : o.precedence < p.precedence := by
  rw [eq_group hp]
  cases o with
  | tuple | chain => decide
  | _ => cases ho

theorem Operator.sameSequence_group {o p : Operator} (ho : o.isGroup = true) :
    o.sameSequence p = false := by
  rw [eq_group ho]
  rfl

namespace Tree

@[simp] theorem operator_leaf (o : Operator) : (leaf o).operator = o := rfl

/-- Whatever is hung below a tree, its top stays. -/
theorem operator_insert {t new t' : Tree} {atTop : Bool} (h : t.insert new atTop = .ok t') :
    t'.operator = t.operator := by
  obtain ⟨o, ts⟩ := t
  rw [insert] at h
  repeat' split at h
  case h_2.isTrue =>
    -- it is hung below the last operand
    obtain ⟨l, -, hl⟩ := ok_of_bind h
    cases hl
    rfl
  all_goals cases h
  all_goals rfl

/-- Hangs a tree below an unfinished one, or below its last item if that is a sequence. -/
def extend (t node : Tree) : Except Fault Tree :=
  if t.operator.isSequence then
    match t.operands.getLast? with
    | none => .error .unmatchedClosing
    | some last => do
      let last ← last.insert node true
      .ok (.node t.operator (t.operands.dropLast ++ [last]))
  else t.insert node true

theorem operator_extend {t node t' : Tree} (h : t.extend node = .ok t') :
    t'.operator = t.operator := by
  rw [extend] at h
  split at h
  · split at h
    · cases h
    · obtain ⟨last, -, hlast⟩ := ok_of_bind h
      cases hlast
      rfl
  · exact operator_insert h

theorem extend_group {t : Tree} (ht : t.operator.isGroup = true) (node : Tree) :
    t.extend node = t.insert node true :=
  if_neg (by simp [Operator.isSequence_group ht])

end Tree

/-- What is no sequence goes to the innermost unfinished tree. -/
theorem grow_cons (hnode : node.operator.isSequence = false) (t : Tree) (rest : Stack) :
    grow node (t :: rest) = t.extend node >>= fun t' => .ok (t' :: rest) := by
  rw [grow, if_neg (by simp [hnode]), Tree.extend]
  split
  · cases t.operands.getLast? with
    | none => rfl
    | some last =>
      dsimp only
      cases last.insert node true <;> rfl
  · rfl

/-! ## Above a place

What grows above an open parenthesis does not depend on what stands below it. -/

/-- If there are any trees, the lowest is a parenthesis. -/
def IsFenced : Stack → Prop
  | [] => True
  | [t] => t.operator.isGroup = true
  | _ :: t :: rest => IsFenced (t :: rest)

namespace IsFenced

variable {t t' : Tree} {rest : Stack}

theorem tail (h : IsFenced (t :: rest)) : IsFenced rest := by
  cases rest with
  | nil => trivial
  | cons u rest => exact h

/-- Another tree with the same operator at the top changes nothing. -/
theorem replace (h : IsFenced (t :: rest)) (ht : t'.operator = t.operator) :
    IsFenced (t' :: rest) := by
  cases rest with
  | nil =>
    show t'.operator.isGroup = true
    rw [ht]
    exact h
  | cons u rest => exact h

theorem cons (h : IsFenced rest) (hne : rest ≠ []) : IsFenced (t :: rest) := by
  cases rest with
  | nil => exact absurd rfl hne
  | cons u rest => exact h

theorem opening (h : IsFenced rest) : IsFenced (emptyGroup :: rest) := by
  cases rest with
  | nil => rfl
  | cons u rest => exact h

/-- Over a fence that is not a group there is something below. -/
theorem ne_nil (h : IsFenced (t :: rest)) (ht : t.operator.isGroup = false) : rest ≠ [] := by
  intro hnil
  subst hnil
  exact Bool.noConfusion (ht.symm.trans h)

end IsFenced

theorem foldTo_above {goal : Operator} (hgoal : goal.isSequence = true)
    (hg : g.operator.isGroup = true) {t' : Tree} : ∀ (mid : Stack) (t : Tree),
    foldTo goal t (mid ++ [g]) = .ok (t', stack) →
    ∃ mid', stack = mid' ++ [g] ∧ mid' ≠ [] ∧ (IsFenced mid → IsFenced mid') ∧
      ∀ below, foldTo goal t (mid ++ below) = .ok (t', mid' ++ below) := by
  intro mid
  induction mid with
  | nil =>
    -- the group itself would be folded, and then nothing is left
    intro t h
    rw [List.nil_append, foldTo, if_pos (Operator.precedence_lt_group hgoal hg), foldTo] at h
    cases h
  | cons outer rest ih =>
    intro t h
    rw [List.cons_append, foldTo] at h
    split at h
    · next hlt =>
      obtain ⟨mid', hstack, hne, hfence, hbelow⟩ := ih _ h
      refine ⟨mid', hstack, hne, fun hf => hfence hf.tail, fun below => ?_⟩
      rw [List.cons_append, foldTo, if_pos hlt]
      exact hbelow below
    · next hlt =>
      cases h
      refine ⟨outer :: rest, rfl, List.cons_ne_nil _ _, id, fun below => ?_⟩
      rw [List.cons_append, foldTo, if_neg hlt]

theorem foldAll_above : ∀ (mid : Stack) (t : Tree), IsFenced (t :: mid) →
    foldAll t (mid ++ [g]) = .ok stack →
    ∃ closed mid', stack = closed :: mid' ++ [g] ∧ IsFenced mid' ∧
      ∀ below, foldAll t (mid ++ below) = .ok (closed :: mid' ++ below) := by
  intro mid
  induction mid with
  | nil =>
    intro t hf h
    have hgroup : t.operator.isGroup = true := hf
    rw [List.nil_append, foldAll, if_pos hgroup] at h
    split at h
    · cases h
    · next hfew =>
      cases h
      refine ⟨t, [], rfl, trivial, fun below => ?_⟩
      cases below with
      | nil => rw [List.nil_append, foldAll, if_pos hgroup, if_neg hfew]; rfl
      | cons u below => rw [List.nil_append, foldAll, if_pos hgroup, if_neg hfew]; rfl
  | cons outer rest ih =>
    intro t hf h
    rw [List.cons_append, foldAll] at h
    split at h
    · next hgroup =>
      split at h
      · cases h
      · next hfew =>
        cases h
        refine ⟨t, outer :: rest, rfl, hf.tail, fun below => ?_⟩
        rw [List.cons_append, foldAll, if_pos hgroup, if_neg hfew]
        rfl
    · next hgroup =>
      split at h
      · next hseq =>
        obtain ⟨closed, mid', hstack, hfence, hbelow⟩ :=
          ih (outer.push t) (hf.tail.replace rfl) h
        refine ⟨closed, mid', hstack, hfence, fun below => ?_⟩
        rw [List.cons_append, foldAll, if_neg hgroup, if_pos hseq]
        exact hbelow below
      · next hseq =>
        split at h
        · cases h
        · next hfull =>
          cases h
          refine ⟨t, outer :: rest, rfl, hf.tail, fun below => ?_⟩
          rw [List.cons_append, foldAll, if_neg hgroup, if_neg hseq, if_neg hfull]
          rfl

theorem growSequence_above (hnode : node.operator.isSequence = true)
    (hg : g.operator.isGroup = true) {t : Tree} {rest : Stack} (hf : IsFenced (t :: rest))
    (h : growSequence node (t :: rest ++ [g]) = .ok stack) :
    ∃ inner, stack = inner ++ [g] ∧ IsFenced inner ∧
      ∀ below, growSequence node (t :: rest ++ below) = .ok (inner ++ below) := by
  rw [List.cons_append, growSequence] at h
  split at h
  · next hsame =>
    cases h
    refine ⟨t.push emptyGroup :: rest, rfl, hf.replace rfl, fun below => ?_⟩
    rw [List.cons_append, growSequence, if_pos hsame]
    rfl
  · next hsame =>
    split at h
    · next hgroup =>
      cases h
      refine ⟨.node node.operator [t, emptyGroup] :: emptyGroup :: rest, rfl, hf.tail.opening,
        fun below => ?_⟩
      rw [List.cons_append, growSequence, if_neg hsame, if_pos hgroup]
      rfl
    · next hgroup =>
      have hne := hf.ne_nil (by simpa using hgroup)
      split at h
      · next hlt =>
        cases hlast : t.operands.getLast? with
        | none => rw [hlast] at h; cases h
        | some last =>
          rw [hlast] at h
          cases h
          refine ⟨.node node.operator [last, emptyGroup] ::
            .node t.operator t.operands.dropLast :: rest, rfl, hf.replace rfl, fun below => ?_⟩
          rw [List.cons_append, growSequence, if_neg hsame, if_neg hgroup, if_pos hlt, hlast]
          rfl
      · next hlt =>
        obtain ⟨folded, hfold, hput⟩ := ok_of_bind h
        cases hput
        obtain ⟨mid', hstack, hne', hfence, hbelow⟩ := foldTo_above hnode hg rest t hfold
        refine ⟨node.push folded.1 :: mid', ?_, (hfence hf.tail).cons hne', fun below => ?_⟩
        · rw [hstack]
          rfl
        · rw [List.cons_append, growSequence, if_neg hsame, if_neg hgroup, if_neg hlt,
            hbelow below]
          rfl

theorem grow_above (hg : g.operator.isGroup = true) {t : Tree} {rest : Stack}
    (hf : IsFenced (t :: rest)) (h : grow node (t :: rest ++ [g]) = .ok stack) :
    ∃ inner, stack = inner ++ [g] ∧ IsFenced inner ∧
      ∀ below, grow node (t :: rest ++ below) = .ok (inner ++ below) := by
  cases hnode : node.operator.isSequence with
  | true =>
    rw [List.cons_append, grow, if_pos hnode] at h
    obtain ⟨inner, hstack, hfence, hbelow⟩ := growSequence_above hnode hg hf h
    refine ⟨inner, hstack, hfence, fun below => ?_⟩
    rw [List.cons_append, grow, if_pos hnode]
    exact hbelow below
  | false =>
    rw [List.cons_append, grow_cons hnode] at h
    obtain ⟨t', hext, hput⟩ := ok_of_bind h
    cases hput
    refine ⟨t' :: rest, rfl, hf.replace (Tree.operator_extend hext), fun below => ?_⟩
    rw [List.cons_append, grow_cons hnode, hext]
    rfl

/-! ## A sequence for good

A sequence that has begun in the whole script stays there until the end. -/

/-- A sequence stands right above the whole script. -/
inductive Sequenced : Stack → Prop
  | base {q b : Tree} (hq : q.operator.isSequence = true) (hb : b = emptyGroup) : Sequenced [q, b]
  | cons (t : Tree) {rest : Stack} (h : Sequenced rest) : Sequenced (t :: rest)

namespace Sequenced

variable {t t' : Tree} {rest : Stack}

theorem replace (h : Sequenced (t :: rest)) (ht : t'.operator = t.operator) :
    Sequenced (t' :: rest) := by
  cases h with
  | base hq hb => exact .base (ht ▸ hq) hb
  | cons _ h => exact .cons t' h

theorem exists_cons (h : Sequenced stack) : ∃ t u rest, stack = t :: u :: rest := by
  cases h with
  | base hq hb => exact ⟨_, _, _, rfl⟩
  | cons t h =>
    cases h with
    | base hq hb => exact ⟨_, _, _, rfl⟩
    | cons u h => exact ⟨_, _, _, rfl⟩

/-- Folding can only come down to a sequence that the goal belongs above. -/
theorem foldTo {goal : Operator} (hgoal : goal.isSequence = true) {t' : Tree}
    (h : Sequenced rest) : ∀ t : Tree, Script.foldTo goal t rest = .ok (t', stack) →
    Sequenced stack := by
  have hlast : ∀ t : Tree, Script.foldTo goal t [emptyGroup] ≠ .ok (t', stack) := by
    intro t hfold
    rw [Script.foldTo, if_pos (Operator.precedence_lt_group hgoal rfl), Script.foldTo] at hfold
    cases hfold
  induction h with
  | @base q b hq hb =>
    intro t hfold
    rw [Script.foldTo] at hfold
    split at hfold
    · rw [hb] at hfold
      exact absurd hfold (hlast _)
    · cases hfold
      exact .base hq hb
  | cons u h ih =>
    intro t hfold
    rw [Script.foldTo] at hfold
    split at hfold
    · exact ih _ hfold
    · cases hfold
      exact .cons u h

/-- Folding up to a parenthesis leaves the sequence alone, or makes it the operand of the whole script. -/
theorem foldAll (h : Sequenced (t :: rest)) (hfold : Script.foldAll t rest = .ok stack) :
    (∃ closed rest', stack = closed :: rest' ∧ Sequenced rest') ∨
      ∃ q, stack = [.node .group [q]] ∧ q.operator.isSequence = true := by
  induction rest generalizing t with
  | nil =>
    obtain ⟨_, _, _, hcons⟩ := h.exists_cons
    cases hcons
  | cons outer rest ih =>
    rw [Script.foldAll] at hfold
    cases h with
    | base hq hb =>
      -- the sequence itself is folded
      rw [if_neg (by simp [Operator.isGroup_sequence hq]), if_pos hq, hb, Script.foldAll] at hfold
      cases hfold
      exact .inr ⟨t, rfl, hq⟩
    | cons _ h =>
      split at hfold
      · split at hfold
        · cases hfold
        · cases hfold
          exact .inl ⟨t, _, rfl, h⟩
      · split at hfold
        · exact ih (t := outer.push t) (h.replace rfl) hfold
        · split at hfold
          · cases hfold
          · cases hfold
            exact .inl ⟨t, _, rfl, h⟩

theorem growSequence (hnode : node.operator.isSequence = true) (h : Sequenced stack)
    (hgrow : Script.growSequence node stack = .ok stack') : Sequenced stack' := by
  obtain ⟨t, u, rest, rfl⟩ := h.exists_cons
  rw [Script.growSequence] at hgrow
  split at hgrow
  · cases hgrow
    exact h.replace rfl
  · next hsame =>
    split at hgrow
    · cases hgrow
      cases h with
      | base hq hb => rw [Operator.isGroup_sequence hq] at *; contradiction
      | cons _ h => exact .cons _ (.cons _ h)
    · split at hgrow
      · cases hlast : t.operands.getLast? with
        | none => rw [hlast] at hgrow; cases hgrow
        | some last =>
          rw [hlast] at hgrow
          cases hgrow
          exact .cons _ (h.replace rfl)
      · next hlt =>
        obtain ⟨folded, hfold, hput⟩ := ok_of_bind hgrow
        cases hput
        cases h with
        | base hq hb =>
          -- only the whole script is left to be folded
          rw [hb, Script.foldTo, if_pos (Operator.precedence_lt_group hnode rfl),
            Script.foldTo] at hfold
          cases hfold
        | cons _ h => exact .cons _ (h.foldTo hnode t hfold)

theorem grow (h : Sequenced stack) (hgrow : Script.grow node stack = .ok stack') :
    Sequenced stack' := by
  obtain ⟨t, u, rest, rfl⟩ := h.exists_cons
  cases hnode : node.operator.isSequence with
  | true =>
    rw [Script.grow, if_pos hnode] at hgrow
    exact h.growSequence hnode hgrow
  | false =>
    rw [grow_cons hnode] at hgrow
    obtain ⟨t', hext, hput⟩ := ok_of_bind hgrow
    cases hput
    exact h.replace (Tree.operator_extend hext)

end Sequenced

/-! ## Token by token -/

/-- What stands behind a parenthesis becomes an operand of what stands before it. -/
def growFolded : Stack → Except Fault Stack
  | [] => .error .unmatchedClosing
  | closed :: outer => grow closed outer

/-- A closing parenthesis belongs to an opening one behind the start of the script. -/
def close : Stack → Except Fault Stack
  | top :: next :: outer => foldAll top (next :: outer) >>= growFolded
  | _ => .error .unmatchedClosing

theorem close_cons (top : Tree) {outer : Stack} (hne : outer ≠ []) :
    close (top :: outer) = foldAll top outer >>= growFolded := by
  cases outer with
  | nil => exact absurd rfl hne
  | cons next outer => rfl

/-- What a token makes of the stack, if it stands for the operator. -/
def growBy (o : Operator) : Token → Stack → Except Fault Stack
  | .opening, stack => .ok (emptyGroup :: stack)
  | .closing, stack => close stack
  | _, stack => grow (.leaf o) stack

theorem growAll_cons (previous : Option Token) (t : Token) (rest : List Token) (stack : Stack) :
    growAll previous (t :: rest) stack
      = growBy (t.operator previous rest.head?) t stack >>= growAll (some t) rest := by
  cases t with
  | opening => rfl
  | closing =>
    rcases stack with - | ⟨top, - | ⟨next, outer⟩⟩
    · rfl
    · rfl
    · rw [growAll, growBy, close, if_neg (by simp)]
      cases foldAll top (next :: outer) with
      | error e => rfl
      | ok folded => cases folded <;> rfl
  | _ => rfl

theorem close_above {t : Tree} {rest : Stack}
    (hf : IsFenced (t :: rest)) (h : close (t :: rest ++ [g]) = .ok stack) :
    ∃ closed mid, grow closed (mid ++ [g]) = .ok stack ∧ IsFenced mid ∧
      ∀ below, below ≠ [] → close (t :: rest ++ below) = grow closed (mid ++ below) := by
  have hclose : ∀ below : Stack, below ≠ [] →
      close (t :: rest ++ below) = foldAll t (rest ++ below) >>= growFolded :=
    fun below hne => close_cons t fun hnil => hne (List.append_eq_nil_iff.mp hnil).2
  rw [hclose [g] (List.cons_ne_nil _ _)] at h
  obtain ⟨folded, hfold, hgrow⟩ := ok_of_bind h
  obtain ⟨closed, mid, rfl, hfence, hbelow⟩ := foldAll_above rest t hf hfold
  refine ⟨closed, mid, hgrow, hfence, fun below hne => ?_⟩
  rw [hclose below hne, hbelow below]
  rfl

theorem Sequenced.close (h : Sequenced stack) (hclose : Script.close stack = .ok stack') :
    Sequenced stack' := by
  obtain ⟨t, u, rest, rfl⟩ := h.exists_cons
  obtain ⟨folded, hfold, hgrow⟩ := ok_of_bind hclose
  rcases h.foldAll hfold with ⟨closed, rest', rfl, h'⟩ | ⟨q, rfl, -⟩
  · exact h'.grow hgrow
  · -- nothing is left that the parenthesis could belong to
    cases hgrow

/-! ## A place for an operand -/

/-- In the unfinished trees that there are around an operand, the operand grows as it does by itself. -/
structure Fits (place : Tree → Stack) : Prop where
  ne_nil : ∀ t, place t ≠ []
  grow : ∀ {t node : Tree}, t.operator.isGroup = true → node.operator.isSequence = false →
    grow node (place t) = (t.insert node true).map place

/-- An operand grows by itself, and in its place. -/
inductive Alongside (place : Tree → Stack) : Stack → Stack → Prop
  | above (inner : Stack) {t : Tree} (ht : t.operator.isGroup = true) (hf : IsFenced inner) :
    Alongside place (inner ++ [t]) (inner ++ place t)

namespace Alongside

variable {place : Tree → Stack} {beside : Stack}

theorem grow (hp : Fits place) (h : Alongside place stack beside)
    (hgrow : Script.grow node stack = .ok stack') :
    (∃ beside', Script.grow node beside = .ok beside' ∧ Alongside place stack' beside') ∨
      Sequenced stack' := by
  cases h with
  | @above inner t ht hf =>
    cases inner with
    | cons u rest =>
      obtain ⟨inner', rfl, hfence, hbelow⟩ := grow_above ht hf hgrow
      exact .inl ⟨_, hbelow _, .above inner' ht hfence⟩
    | nil =>
      cases hnode : node.operator.isSequence with
      | true =>
        rw [List.nil_append, Script.grow, if_pos hnode, growSequence,
          if_neg (by simp [Operator.sameSequence_group ht]), if_pos ht] at hgrow
        cases hgrow
        exact .inr (.base hnode rfl)
      | false =>
        rw [List.nil_append, grow_cons hnode, Tree.extend_group ht] at hgrow
        obtain ⟨t', hins, hput⟩ := ok_of_bind hgrow
        cases hput
        refine .inl ⟨place t', ?_, .above [] (Tree.operator_insert hins ▸ ht) trivial⟩
        rw [List.nil_append, hp.grow ht hnode, hins]
        rfl

theorem growBy (hp : Fits place) (h : Alongside place stack beside) {o : Operator} {t : Token}
    (hgrow : Script.growBy o t stack = .ok stack') :
    (∃ beside', Script.growBy o t beside = .ok beside' ∧ Alongside place stack' beside') ∨
      Sequenced stack' := by
  cases t with
  | opening =>
    cases hgrow
    cases h with
    | above inner ht hf => exact .inl ⟨_, rfl, .above (emptyGroup :: inner) ht hf.opening⟩
  | closing =>
    cases h with
    | @above inner t ht hf =>
      cases inner with
      | nil => cases hgrow
      | cons u rest =>
        obtain ⟨closed, mid, hgrow, hfence, hbelow⟩ := close_above hf hgrow
        have hbeside : Script.growBy o .closing (u :: rest ++ place t)
            = Script.grow closed (mid ++ place t) := hbelow _ (hp.ne_nil t)
        rw [hbeside]
        exact Alongside.grow hp (.above mid ht hfence) hgrow
  | _ => exact h.grow hp hgrow

end Alongside

theorem Sequenced.growBy (h : Sequenced stack) {o : Operator} {t : Token}
    (hgrow : Script.growBy o t stack = .ok stack') : Sequenced stack' := by
  cases t with
  | opening =>
    cases hgrow
    exact .cons _ h
  | closing => exact h.close hgrow
  | _ => exact h.grow hgrow

theorem Sequenced.growAll : ∀ (ts : List Token) (previous : Option Token) {stack : Stack},
    Sequenced stack → Script.growAll previous ts stack = .ok stack' → Sequenced stack' := by
  intro ts
  induction ts with
  | nil =>
    intro previous stack h hgrow
    cases hgrow
    exact h
  | cons t rest ih =>
    intro previous stack h hgrow
    rw [growAll_cons] at hgrow
    obtain ⟨next, hstep, hrest⟩ := ok_of_bind hgrow
    exact ih (some t) (h.growBy hstep) hrest

theorem Alongside.growAll {place : Tree → Stack} (hp : Fits place) :
    ∀ (ts : List Token) (previous : Option Token) {stack beside : Stack},
    Alongside place stack beside → Script.growAll previous ts stack = .ok stack' →
    (∃ beside', Script.growAll previous ts beside = .ok beside' ∧ Alongside place stack' beside') ∨
      Sequenced stack' := by
  intro ts
  induction ts with
  | nil =>
    intro previous stack beside h hgrow
    cases hgrow
    exact .inl ⟨beside, rfl, h⟩
  | cons t rest ih =>
    intro previous stack beside h hgrow
    rw [growAll_cons] at hgrow
    obtain ⟨next, hstep, hrest⟩ := ok_of_bind hgrow
    rcases h.growBy hp hstep with ⟨nextBeside, hbeside, h'⟩ | hseq
    · rw [growAll_cons, hbeside]
      exact ih (some t) h' hrest
    · exact .inr (hseq.growAll rest (some t) hrest)

/-! ## Expressions -/

/-- The tokens read by themselves as a tree that is no sequence. -/
structure ReadsAs (ts : List Token) (e : Tree) : Prop where
  reads : Tree.ofTokens ts = .ok (.node .group [e])
  single : e.operator.isSequence = false

/-- The tree of the unfinished ones, when the tokens have come to an end. -/
def finishStack : Stack → Except Fault Tree
  | [] => .error .unmatchedClosing
  | top :: rest => do
    match ← foldAll top rest with
    | [t] => .ok t
    | [] => .error .unmatchedClosing
    | _ => .error .unmatchedOpening

theorem ofTokens_eq (ts : List Token) :
    Tree.ofTokens ts = growAll none ts [emptyGroup] >>= finishStack := by
  rw [Tree.ofTokens]
  cases growAll none ts [emptyGroup] with
  | error e => rfl
  | ok stack => cases stack <;> rfl

theorem Sequenced.finish {t : Tree} (h : Sequenced stack) (hfinish : finishStack stack = .ok t) :
    ∃ q, t = .node .group [q] ∧ q.operator.isSequence = true := by
  obtain ⟨top, u, rest, rfl⟩ := h.exists_cons
  obtain ⟨folded, hfold, hone⟩ := ok_of_bind hfinish
  rcases h.foldAll hfold with ⟨closed, rest', rfl, h'⟩ | ⟨q, rfl, hq⟩
  · obtain ⟨_, _, _, rfl⟩ := h'.exists_cons
    cases hone
  · cases hone
    exact ⟨q, rfl, hq⟩

/-- Only if nothing is unfinished above the whole script is that the tree. -/
theorem finishStack_above (hg : g.operator.isGroup = true) {inner : Stack} (hf : IsFenced inner)
    {t : Tree} (h : finishStack (inner ++ [g]) = .ok t) : inner = [] ∧ t = g := by
  cases inner with
  | nil =>
    rw [List.nil_append, finishStack, foldAll, if_pos hg] at h
    split at h
    · cases h
    · cases h
      exact ⟨rfl, rfl⟩
  | cons u rest =>
    rw [List.cons_append] at h
    obtain ⟨folded, hfold, hone⟩ := ok_of_bind h
    obtain ⟨closed, mid, rfl, -⟩ := foldAll_above rest u hf hfold
    cases mid <;> cases hone

/-- **An expression grows in its place to what it is by itself.** -/
theorem growAll_place {ts : List Token} {e : Tree} (h : ReadsAs ts e) {place : Tree → Stack}
    (hp : Fits place) : growAll none ts (place emptyGroup) = .ok (place (.node .group [e])) := by
  have hreads := h.reads
  rw [ofTokens_eq] at hreads
  obtain ⟨stack, hgrow, hfinish⟩ := ok_of_bind hreads
  have hstart : Alongside place [emptyGroup] (place emptyGroup) := .above [] rfl trivial
  rcases hstart.growAll hp ts none hgrow with ⟨beside, hbeside, halong⟩ | hseq
  · cases halong with
    | above inner ht hf =>
      obtain ⟨rfl, ht⟩ := finishStack_above ht hf hfinish
      rw [hbeside, ht]
      rfl
  · obtain ⟨q, hq, hsequence⟩ := hseq.finish hfinish
    cases hq
    exact absurd (h.single.symm.trans hsequence) Bool.noConfusion

end ReactiveRules.Script
