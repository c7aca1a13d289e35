import ReactiveRules.Script.Context

/-!
# `Proofs/Script/Variables.lean` — variables in any order

A script reads and assigns its variables by their names. **Two lists that give the same value for every
name are the same variables to a script**: whatever it does among them, it asks its surroundings for the
same things and ends with the same value (`Scope.Alike.run`).

`Process.Both` relates two processes that go the same way and end in related results; a script keeps
`Variables.Agree` from each operand to the next.
-/

set_option autoImplicit false

namespace ReactiveRules.Script

/-! ## Variables that agree -/

namespace Variables

variable {vars vars' : Variables} {x y : String} {v : Value}

theorem get?_set (vars : Variables) (x : String) (v : Value) (y : String) :
    (vars.set x v).get? y = if y = x then some v else vars.get? y := by
  induction vars with
  | nil =>
    by_cases h : y = x
    · simp [set, get?, h]
    · simp [set, get?, h, Ne.symm h]
  | cons entry rest ih =>
    obtain ⟨z, w⟩ := entry
    unfold get? at ih ⊢
    by_cases hz : z = x
    · subst hz
      by_cases hy : z = y
      · simp [set, hy]
      · simp [set, hy, Ne.symm hy]
    · by_cases hy : z = y
      · subst hy
        simp [set, hz]
      · simp [set, hz, hy, ih]

/-- Every name has the same value in both. -/
def Agree (vars vars' : Variables) : Prop := ∀ x, vars.get? x = vars'.get? x

theorem Agree.set (h : vars.Agree vars') (x : String) (v : Value) :
    (vars.set x v).Agree (vars'.set x v) := by
  intro y
  rw [get?_set, get?_set, h y]

theorem Agree.read (h : vars.Agree vars') (x : String) : vars.read x = vars'.read x := by
  unfold Variables.read
  rw [h x]

end Variables

/-- The same fault, or the same value among variables that agree. -/
inductive SameResult {α : Type} :
    Except Fault (α × Variables) → Except Fault (α × Variables) → Prop
  | fault (f : Fault) : SameResult (.error f) (.error f)
  | value (a : α) {vars vars' : Variables} (h : vars.Agree vars') :
      SameResult (.ok (a, vars)) (.ok (a, vars'))

theorem SameResult.bind {α β : Type} {f g : β → Except Fault (α × Variables)}
    (r : Except Fault β) (h : ∀ b, SameResult (f b) (g b)) : SameResult (r >>= f) (r >>= g) := by
  cases r with
  | error e => exact .fault e
  | ok b => exact h b

namespace Variables.Agree

variable {vars vars' : Variables}

theorem assign (h : vars.Agree vars') (x : String) (v : Value) :
    SameResult (do .ok (Value.empty, ← vars.assign x v))
      (do .ok (Value.empty, ← vars'.assign x v)) := by
  unfold Variables.assign
  rw [h x]
  split
  · exact .value Value.empty (h.set x v)
  · split
    · exact .value Value.empty (h.set x v)
    · exact .fault _

/-- An operator gives the same among variables that agree, and leaves variables that agree. -/
theorem apply (h : vars.Agree vars') (writable : Bool) (vs : List Value) (o : Operator) :
    SameResult (o.apply writable vars vs) (o.apply writable vars' vs) := by
  cases o with
  | group => exact .value _ h
  | binary b => exact .bind _ fun _ => .bind _ fun v => .value v h
  | negate => exact .bind _ fun _ => .bind _ fun v => .value v h
  | not => exact .bind _ fun _ => .bind _ fun v => .value _ h
  | assign =>
    simp only [Operator.apply]
    split
    · exact .bind _ fun (target, v) => .bind _ fun x => h.assign x v
    · exact .fault .readOnly
  | update b =>
    simp only [Operator.apply]
    split
    · refine .bind _ fun (target, v) => .bind _ fun x => ?_
      rw [h.read x]
      exact .bind _ fun old => .bind _ fun v => h.assign x v
    · exact .fault .readOnly
  | tuple => exact .value _ h
  | chain =>
    simp only [Operator.apply]
    split
    · exact .value _ h
    · exact .fault _
  | constant v => exact .bind _ fun _ => .value v h
  | read x =>
    refine .bind _ fun _ => ?_
    rw [h.read x]
    exact .bind _ fun v => .value v h
  | write x => exact .bind _ fun _ => .value _ h
  | call f => exact .fault _

end Variables.Agree

/-! ## Processes that go the same way -/

namespace Process

variable {α β γ δ : Type}

/-- Both do the same and end in related results. -/
inductive Both (R : α → β → Prop) : Process α → Process β → Prop
  | done {a : α} {b : β} (h : R a b) : Both R (.done a) (.done b)
  | panicked (m : String) : Both R (.panicked m) (.panicked m)
  | log (line : String) {p : Process α} {q : Process β} (h : Both R p q) :
      Both R (.log line p) (.log line q)
  | invoke (f : String) (args : List Json) {k : Reply → Process α} {l : Reply → Process β}
      (h : ∀ r, Both R (k r) (l r)) : Both R (.invoke f args k) (.invoke f args l)

variable {R : α → β → Prop} {S : γ → δ → Prop} {p : Process α} {q : Process β}

theorem Both.bind {f : α → Process γ} {g : β → Process δ} (h : Both R p q)
    (hf : ∀ a b, R a b → Both S (f a) (g b)) : Both S (p.bind f) (q.bind g) := by
  induction h with
  | done h => exact hf _ _ h
  | panicked m => exact .panicked m
  | log line h ih => exact .log line ih
  | invoke f args h ih => exact .invoke f args ih

theorem both_refl {R : α → α → Prop} (hR : ∀ a, R a a) (p : Process α) : Both R p p := by
  induction p with
  | done a => exact .done (hR a)
  | panicked m => exact .panicked m
  | log line next ih => exact .log line ih
  | invoke f args next ih => exact .invoke f args ih

theorem Both.eq {p q : Process α} (h : Both Eq p q) : p = q := by
  induction h with
  | done h => rw [h]
  | panicked m => rfl
  | log line h ih => rw [ih]
  | invoke f args h ih => rw [funext ih]

/-- What goes on after the same fault or the same value goes the same way. -/
theorem Both.andThen {p q : Process (Except Fault (α × Variables))}
    {f g : α × Variables → Process (Except Fault (β × Variables))} (h : Both SameResult p q)
    (hf : ∀ a vars vars', vars.Agree vars' → Both SameResult (f (a, vars)) (g (a, vars'))) :
    Both SameResult (p.andThen f) (q.andThen g) := by
  refine h.bind fun a b hab => ?_
  cases hab with
  | fault e => exact .done (.fault e)
  | value a h => exact hf a _ _ h

end Process

/-- Two scopes in which calls and assignments do the same. -/
structure Scope.Alike (s s' : Scope) : Prop where
  writable : s.writable = s'.writable
  call : ∀ f v, s.call f v = s'.call f v

namespace Scope.Alike

variable {s s' : Scope} {vars vars' : Variables}

theorem apply (hs : s.Alike s') (h : vars.Agree vars') (o : Operator) (vs : List Value) :
    Process.Both SameResult (s.apply o vs vars) (s'.apply o vs vars') := by
  unfold Scope.apply
  split
  · split
    · exact .done (.fault _)
    · rw [hs.call]
      refine (Process.both_refl (R := Eq) (fun _ => rfl) (s'.call _ _)).bind fun a b hab => ?_
      subst hab
      cases a with
      | error e => exact .done (.fault e)
      | ok v => exact .done (.value v h)
  · rw [hs.writable]
    exact .done (h.apply s'.writable vs _)

-- the induction is on the tree, with all operands of a node at once
mutual

theorem eval (hs : s.Alike s') : ∀ (t : Tree) (vars vars' : Variables), vars.Agree vars' →
    Process.Both SameResult (s.eval t vars) (s'.eval t vars')
  | .node o ts, vars, vars', h => by
    rw [Scope.eval, Scope.eval]
    exact (hs.evalAll ts vars vars' h).andThen fun vs _ _ h => hs.apply h o vs

theorem evalAll (hs : s.Alike s') : ∀ (ts : List Tree) (vars vars' : Variables),
    vars.Agree vars' → Process.Both SameResult (s.evalAll ts vars) (s'.evalAll ts vars')
  | [], vars, vars', h => by
    rw [Scope.evalAll, Scope.evalAll]
    exact .done (.value [] h)
  | t :: ts, vars, vars', h => by
    rw [Scope.evalAll, Scope.evalAll]
    exact (hs.eval t vars vars' h).andThen fun v vars vars' h =>
      (hs.evalAll ts vars vars' h).andThen fun vs _ _ h => .done (.value (v :: vs) h)

end

/-- **A script cannot tell variables that agree from each other.** -/
theorem run (hs : s.Alike s') (h : vars.Agree vars') (t : Tree) : s.run t vars = s'.run t vars' := by
  refine Process.Both.eq ((hs.eval t vars vars' h).bind fun a b hab => ?_)
  cases hab with
  | fault e => exact .done rfl
  | value v h => exact .done rfl

end Scope.Alike

end ReactiveRules.Script
