import ReactiveRules.Proofs.Script.Growth
import ReactiveRules.Script.Attend

/-!
# `Proofs/Script/Truth.lean` — which operators want booleans

A fault names what was wanted of a value. **A boolean is wanted by `!`, `&&` and `||`, by the function `if`
unless a command has its name, and by the assignments, whose variables keep their kind; by nothing else**
(`Scope.asksTruth_iff`). An evaluation has no faults but those of the operators of its tree
(`Scope.fault_of_eval`).

Neither depends on what commands answer, so both are stated of `Process.CanEnd`, all ends that a process
can come to.
-/

set_option autoImplicit false

namespace ReactiveRules

namespace Script

/-! ## How a process can end -/

namespace Process

variable {α β ε : Type}

/-- With some answers to its calls the process ends with the result. -/
def CanEnd (a : α) : Process α → Prop
  | .done b => b = a
  | .panicked _ => False
  | .log _ next => next.CanEnd a
  | .invoke _ _ next => ∃ r, (next r).CanEnd a

@[simp] theorem canEnd_done {a b : α} : (done b).CanEnd a ↔ b = a := Iff.rfl

@[simp] theorem not_canEnd_panicked {a : α} {m : String} : ¬(panicked m : Process α).CanEnd a := id

theorem canEnd_bind {p : Process α} {k : α → Process β} {b : β} :
    (p.bind k).CanEnd b ↔ ∃ a, p.CanEnd a ∧ (k a).CanEnd b := by
  induction p with
  | done a => simp
  | panicked m => simp
  | log m next ih => exact ih
  | invoke f args next ih =>
    simp only [invoke_bind, CanEnd, ih]
    exact ⟨fun ⟨r, a, h, hk⟩ => ⟨a, ⟨r, h⟩, hk⟩, fun ⟨a, ⟨r, h⟩, hk⟩ => ⟨r, a, h, hk⟩⟩

/-- A process fails before another, or hands it a value and that one fails. -/
theorem canEnd_andThen_error {p : Process (Except ε α)} {k : α → Process (Except ε β)} {e : ε} :
    (p.andThen k).CanEnd (.error e) ↔
      p.CanEnd (.error e) ∨ ∃ a, p.CanEnd (.ok a) ∧ (k a).CanEnd (.error e) := by
  rw [andThen, canEnd_bind]
  constructor
  · rintro ⟨e' | a, hp, hk⟩
    · cases hk
      exact .inl hp
    · exact .inr ⟨a, hp, hk⟩
  · rintro (hp | ⟨a, hp, hk⟩)
    · exact ⟨.error e, hp, rfl⟩
    · exact ⟨.ok a, hp, hk⟩

/-- What a process comes to among given surroundings is one of its ends. -/
theorem canEnd_attend {σ : Type} {respond : σ → String → List Json → σ × Response} {p : Process α}
    {flag : Bool} {s : σ} {a : α} (h : (p.attend respond flag s).result = .ok a) : p.CanEnd a := by
  induction p generalizing flag s with
  | done b => exact Except.ok.inj h
  | panicked m => cases h
  | log line next ih => exact ih h
  | invoke f args next ih =>
    rw [attend] at h
    split at h
    · exact ⟨_, ih .cancelled h⟩
    · dsimp only at h
      split at h
      · exact ⟨_, ih _ h⟩
      · cases h

end Process

open Process (CanEnd)

/-! ## Asking for a boolean -/

/-- Was a boolean wanted? -/
def Fault.wantsTruth : Fault → Bool
  | .unwanted (.kind .bool) _ => true
  | _ => false

variable {α β : Type}

/-- If it fails, it is for another reason than that a boolean was wanted. -/
def SparesTruth (x : Except Fault α) : Prop := ∀ fault, x = .error fault → fault.wantsTruth = false

theorem sparesTruth_ok (a : α) : SparesTruth (.ok a : Except Fault α) := fun _ h => by cases h

theorem sparesTruth_error {fault : Fault} (h : fault.wantsTruth = false) :
    SparesTruth (.error fault : Except Fault α) := fun _ h' => Except.error.inj h' ▸ h

theorem SparesTruth.bind {x : Except Fault α} {k : α → Except Fault β} (hx : SparesTruth x)
    (hk : ∀ a, x = .ok a → SparesTruth (k a)) : SparesTruth (x >>= k) := by
  cases x with
  | error fault => exact sparesTruth_error (hx fault rfl)
  | ok a => exact hk a rfl

/-- What is computed from a value without a fault of its own. -/
theorem SparesTruth.map {x : Except Fault α} (hx : SparesTruth x) (f : α → β) :
    SparesTruth (x >>= fun a => .ok (f a)) :=
  hx.bind fun a _ => sparesTruth_ok (f a)

/-! ### Operands -/

namespace Value

theorem sparesTruth_number (v : Value) : SparesTruth v.number := by
  unfold number
  split
  · exact sparesTruth_ok _
  · exact sparesTruth_ok _
  · exact sparesTruth_error rfl

theorem sparesTruth_integer (v : Value) : SparesTruth v.integer := by
  unfold integer
  split
  · exact sparesTruth_ok _
  · exact sparesTruth_error rfl

theorem sparesTruth_string (v : Value) : SparesTruth v.string := by
  unfold string
  split
  · exact sparesTruth_ok _
  · exact sparesTruth_error rfl

theorem sparesTruth_items (v : Value) : SparesTruth v.items := by
  unfold items
  split
  · exact sparesTruth_ok _
  · exact sparesTruth_error rfl

theorem sparesTruth_pair (v : Value) : SparesTruth v.pair := by
  unfold pair
  split
  · exact sparesTruth_ok _
  · exact sparesTruth_error rfl
  · exact sparesTruth_error rfl

theorem sparesTruth_summand (v : Value) : SparesTruth v.summand := by
  unfold summand
  split
  · exact sparesTruth_ok _
  · exact sparesTruth_ok _
  · exact sparesTruth_ok _
  · exact sparesTruth_error rfl

end Value

theorem sparesTruth_exactly (n : Nat) (vs : List Value) : SparesTruth (exactly n vs) := by
  unfold exactly
  split
  · exact sparesTruth_ok _
  · exact sparesTruth_error rfl

theorem sparesTruth_oneOperand (vs : List Value) : SparesTruth (oneOperand vs) := by
  unfold oneOperand
  split
  · exact sparesTruth_ok _
  · exact sparesTruth_error rfl

theorem sparesTruth_twoOperands (vs : List Value) : SparesTruth (twoOperands vs) := by
  unfold twoOperands
  split
  · exact sparesTruth_ok _
  · exact sparesTruth_error rfl

theorem Variables.sparesTruth_read (vars : Variables) (x : String) : SparesTruth (vars.read x) := by
  unfold Variables.read
  split
  · exact sparesTruth_ok _
  · exact sparesTruth_error rfl

/-! ### Operators between operands -/

/-- Does the operator take booleans? -/
def Binary.asksTruth : Binary → Bool
  | .and | .or => true
  | _ => false

theorem sparesTruth_arithmetic (op : Arithmetic) (a b : Value) : SparesTruth (arithmetic op a b) :=
  a.sparesTruth_number.bind fun x _ => b.sparesTruth_number.bind fun y _ => by
    split
    · split
      · exact sparesTruth_ok _
      · exact sparesTruth_error rfl
    · exact sparesTruth_ok _

theorem sparesTruth_sum (a b : Value) : SparesTruth (sum a b) :=
  a.sparesTruth_summand.bind fun _ _ => b.sparesTruth_summand.bind fun _ _ => by
    split
    · exact sparesTruth_ok _
    · exact sparesTruth_error rfl
    · exact sparesTruth_error rfl
    · exact sparesTruth_arithmetic _ _ _

theorem sparesTruth_ordering (texts : String → String → Bool) (ints : Int64 → Int64 → Bool)
    (floats : Float → Float → Bool) (a b : Value) : SparesTruth (ordering texts ints floats a b) :=
  a.sparesTruth_summand.bind fun _ _ => b.sparesTruth_summand.bind fun _ _ => by
    split
    · exact sparesTruth_ok _
    · exact sparesTruth_ok _
    · exact a.sparesTruth_number.bind fun x _ => b.sparesTruth_number.map _

theorem sparesTruth_negate (v : Value) : SparesTruth (negate v) :=
  v.sparesTruth_number.bind fun x _ => by
    split
    · split
      · exact sparesTruth_ok _
      · exact sparesTruth_error rfl
    · exact sparesTruth_ok _

theorem Binary.sparesTruth_apply {op : Binary} (h : op.asksTruth = false) (a b : Value) :
    SparesTruth (op.apply a b) := by
  cases op with
  | and => cases h
  | or => cases h
  | add => exact sparesTruth_sum a b
  | subtract => exact sparesTruth_arithmetic _ a b
  | multiply => exact sparesTruth_arithmetic _ a b
  | divide => exact sparesTruth_arithmetic _ a b
  | modulo => exact sparesTruth_arithmetic _ a b
  | power => exact a.sparesTruth_number.bind fun x _ => b.sparesTruth_number.map _
  | equal => exact sparesTruth_ok _
  | unequal => exact sparesTruth_ok _
  | greater => exact sparesTruth_ordering _ _ _ a b
  | less => exact sparesTruth_ordering _ _ _ a b
  | atLeast => exact sparesTruth_ordering _ _ _ a b
  | atMost => exact sparesTruth_ordering _ _ _ a b

/-- With a boolean on the left an operator yields a boolean, if it yields anything. -/
theorem Binary.kind_apply_bool {op : Binary} {x : Bool} {v r : Value}
    (h : op.apply (.bool x) v = .ok r) : r.kind = .bool := by
  cases op with
  | equal => cases h; rfl
  | unequal => cases h; rfl
  | and =>
    obtain ⟨y, -, h⟩ := ok_of_bind (x := v.truth) h
    cases h
    rfl
  | or =>
    obtain ⟨y, -, h⟩ := ok_of_bind (x := v.truth) h
    cases h
    rfl
  | _ => cases h

/-! ### Functions -/

namespace Builtin

/-- Whatever the function is called with, it fails for another reason than that a boolean was wanted. -/
def Spares (g : Builtin) : Prop :=
  ∀ v fault, (g v).CanEnd (.error fault) → fault.wantsTruth = false

theorem spares_plain {k : Value → Except Fault Value} (h : ∀ v, SparesTruth (k v)) :
    Spares (plain k) :=
  fun v fault hv => h v fault hv

theorem spares_ofFloat (f : Float → Float) : Spares (ofFloat f) :=
  spares_plain fun v => v.sparesTruth_number.map _

theorem spares_ofTest (f : Float → Bool) : Spares (ofTest f) :=
  spares_plain fun v => v.sparesTruth_number.map _

theorem spares_ofFloats (f : Float → Float → Float) : Spares (ofFloats f) :=
  spares_plain fun v => v.sparesTruth_pair.bind fun (a, b) _ =>
    a.sparesTruth_number.bind fun _ _ => b.sparesTruth_number.map _

theorem sparesTruth_integers (v : Value) : SparesTruth (integers v) :=
  v.sparesTruth_pair.bind fun (a, b) _ =>
    a.sparesTruth_integer.bind fun _ _ => b.sparesTruth_integer.map _

theorem spares_ofInts (f : Int64 → Int64 → Int64) : Spares (ofInts f) :=
  spares_plain fun v => (sparesTruth_integers v).map _

theorem spares_shift (direction : String) (f : Int64 → Int64 → Int64) :
    Spares (shift direction f) := by
  intro v fault h
  unfold shift at h
  split at h
  · next hv => exact sparesTruth_integers v _ (hv.trans (congrArg _ (Except.error.inj h)))
  · split at h
    · cases h
    · cases h

theorem spares_absolute : Spares absolute := by
  intro v fault h
  unfold absolute at h
  split at h
  · cases h
  · split at h
    · cases h
    · cases h
  · cases h
    rfl

theorem sparesTruth_extremeOf (better : Float → Float → Bool) (betterInt : Int64 → Int64 → Bool)
    (vs : List Value) (n : Int64) (x : Float) : SparesTruth (extremeOf better betterInt vs n x) := by
  induction vs generalizing n x with
  | nil => exact sparesTruth_ok _
  | cons v rest ih =>
    cases v with
    | float y => exact ih _ _
    | int m => exact ih _ _
    | _ => exact sparesTruth_error rfl

theorem sparesTruth_checkSearchable (v : Value) : SparesTruth (checkSearchable v) := by
  unfold checkSearchable
  split
  · exact sparesTruth_ok _
  · exact sparesTruth_error rfl

theorem spares_contains : Spares contains :=
  spares_plain fun v => v.sparesTruth_pair.bind fun (a, b) _ =>
    a.sparesTruth_items.bind fun _ _ => (sparesTruth_checkSearchable b).map _

theorem sparesTruth_checkAll (vs : List Value) : SparesTruth (vs.forM checkSearchable) := by
  induction vs with
  | nil => exact sparesTruth_ok _
  | cons v rest ih => exact (sparesTruth_checkSearchable v).bind fun _ _ => ih

theorem spares_containsAny : Spares containsAny :=
  spares_plain fun v => v.sparesTruth_pair.bind fun (a, b) _ =>
    a.sparesTruth_items.bind fun _ _ => b.sparesTruth_items.bind fun wanted _ =>
      (sparesTruth_checkAll wanted).map _

theorem spares_length : Spares length :=
  spares_plain fun v => by
    split
    · exact sparesTruth_ok _
    · exact sparesTruth_ok _
    · exact sparesTruth_error rfl

theorem spares_toText : Spares toText :=
  spares_plain fun v => by
    split <;> exact sparesTruth_ok _

theorem sparesTruth_sliceParts (v : Value) : SparesTruth (sliceParts v) := by
  unfold sliceParts
  split
  · exact sparesTruth_ok _
  · exact sparesTruth_ok _
  · exact sparesTruth_error rfl
  · exact sparesTruth_error rfl

theorem sparesTruth_offset (v : Value) : SparesTruth (offset v) :=
  v.sparesTruth_integer.bind fun n _ => by
    split
    · exact sparesTruth_error rfl
    · exact sparesTruth_ok _

theorem sparesTruth_sliceArguments (v : Value) : SparesTruth (sliceArguments v) :=
  (sparesTruth_sliceParts v).bind fun (subject, first, last?) _ =>
    subject.sparesTruth_string.bind fun s _ => (sparesTruth_offset first).bind fun low _ => by
      have hcut : ∀ high, SparesTruth (if low > high || high > s.utf8ByteSize then
          .error .outOfBounds else .ok (s, low, high)) := by
        intro high
        split
        · exact sparesTruth_error rfl
        · exact sparesTruth_ok _
      cases last? with
      | none => exact hcut _
      | some last => exact (sparesTruth_offset last).bind fun high _ => hcut high

theorem spares_substring : Spares substring := by
  intro v fault h
  unfold substring at h
  split at h
  · next hv => exact sparesTruth_sliceArguments v _ (hv.trans (congrArg _ (Except.error.inj h)))
  · unfold slice at h
    split at h
    · cases h
    · split at h
      · cases h
      · cases h

end Builtin

/-- Of the functions every script has, only `if` wants a boolean. -/
theorem spares_builtin {f : String} {g : Builtin} (h : builtin? f = some g) (hf : f ≠ "if") :
    g.Spares := by
  unfold builtin? at h
  split at h <;> cases h
  all_goals first
    | exact absurd rfl hf
    | exact Builtin.spares_ofFloat _
    | exact Builtin.spares_ofTest _
    | exact Builtin.spares_ofFloats _
    | exact Builtin.spares_ofInts _
    | exact Builtin.spares_shift _ _
    | exact Builtin.spares_absolute
    | exact Builtin.spares_contains
    | exact Builtin.spares_containsAny
    | exact Builtin.spares_length
    | exact Builtin.spares_toText
    | exact Builtin.spares_substring
    | exact Builtin.spares_plain fun v => v.sparesTruth_string.map _
    | exact Builtin.spares_plain fun v => v.sparesTruth_integer.map _
    | exact Builtin.spares_plain fun v => sparesTruth_ok _
    | exact Builtin.spares_plain fun v =>
        v.sparesTruth_items.bind fun _ _ => Builtin.sparesTruth_extremeOf _ _ _ _ _

/-! ### Operators -/

theorem Variables.sparesTruth_assign {vars : Variables} {x : String} {v : Value}
    (h : ∀ old, vars.get? x = some old → old.kind = .bool → v.kind = .bool) :
    SparesTruth (vars.assign x v) := by
  intro fault hfault
  unfold Variables.assign at hfault
  split at hfault
  · cases hfault
  · next old hold =>
    split at hfault
    · cases hfault
    · next hne =>
      cases hfault
      unfold Fault.wantsTruth
      split
      · next hk =>
        -- a boolean stands where another kind has been before
        have hbool : old.kind = .bool := by injection hk with hk _; injection hk
        rw [hbool, h old hold hbool] at hne
        exact absurd rfl hne
      · rfl

theorem Variables.get?_of_read {vars : Variables} {x : String} {v : Value}
    (h : vars.read x = .ok v) : vars.get? x = some v := by
  unfold Variables.read at h
  split at h
  · next hx => rw [hx, Except.ok.inj h]
  · cases h

namespace Scope

/-- Can the operator fail because a boolean was wanted? The assignments can if they are allowed at all. -/
def asksTruth (s : Scope) : Operator → Bool
  | .not => true
  | .binary b => b.asksTruth
  | .assign => s.writable
  | .update b => s.writable && b.asksTruth
  | .call f => f == "if" && !s.commands.contains f
  | _ => false

theorem sparesTruth_call {s : Scope} {f : String} (h : s.asksTruth (.call f) = false) (v : Value)
    {fault : Fault} (hv : (s.call f v).CanEnd (.error fault)) : fault.wantsTruth = false := by
  unfold call at hv
  split at hv
  · obtain ⟨r, hr⟩ := hv
    cases r with
    | returned w => cases hr
    | failed m => cases hr; rfl
    | cancelled => cases hr; rfl
  · next hcommand =>
    split at hv
    · exact (v.sparesTruth_string.bind fun name _ => by
        split <;> exact sparesTruth_ok _) fault hv
    · split at hv
      · cases hv
      · split at hv
        · next g hg =>
          refine spares_builtin hg (fun hf => ?_) v fault hv
          subst hf
          exact hcommand (by simpa [asksTruth] using h)
        · cases hv
          rfl

/-- Of the operators that are no calls. -/
theorem sparesTruth_apply {s : Scope} {o : Operator} (h : s.asksTruth o = false) (vars : Variables)
    (vs : List Value) : SparesTruth (o.apply s.writable vars vs) := by
  cases o with
  | group => exact sparesTruth_ok _
  | binary b =>
    exact (sparesTruth_twoOperands vs).bind fun (x, y) _ => (b.sparesTruth_apply h x y).map _
  | negate => exact (sparesTruth_oneOperand vs).bind fun v _ => (sparesTruth_negate v).map _
  | not => cases h
  | assign =>
    dsimp only [Operator.apply]
    rw [if_neg (Bool.eq_false_iff.mp (show s.writable = false from h))]
    exact sparesTruth_error rfl
  | update b =>
    dsimp only [Operator.apply]
    split
    · next hw =>
      have hb : b.asksTruth = false := by
        rw [asksTruth, hw] at h
        exact h
      refine (sparesTruth_twoOperands vs).bind fun (target, v) _ =>
        target.sparesTruth_string.bind fun x _ => (vars.sparesTruth_read x).bind fun old hold =>
          (b.sparesTruth_apply hb old v).bind fun r hr =>
            (Variables.sparesTruth_assign fun old' hold' hbool => ?_).map _
      -- what the variable held before is what the operator was given
      obtain rfl : old = old' := Option.some.inj ((Variables.get?_of_read hold).symm.trans hold')
      cases old with
      | bool x => exact Binary.kind_apply_bool hr
      | _ => cases hbool
    · exact sparesTruth_error rfl
  | tuple => exact sparesTruth_ok _
  | chain =>
    dsimp only [Operator.apply]
    split
    · exact sparesTruth_ok _
    · exact sparesTruth_error rfl
  | constant v => exact (sparesTruth_exactly 0 vs).map _
  | read x => exact (sparesTruth_exactly 0 vs).bind fun _ _ => (vars.sparesTruth_read x).map _
  | write x => exact (sparesTruth_exactly 0 vs).map _
  | call f => exact sparesTruth_error rfl

/-- An operator that does not ask for a boolean fails for another reason. -/
theorem wantsTruth_of_canEnd {s : Scope} {o : Operator} (h : s.asksTruth o = false) {vs : List Value}
    {vars : Variables} {fault : Fault} (hend : (s.apply o vs vars).CanEnd (.error fault)) :
    fault.wantsTruth = false := by
  cases o with
  | call f =>
    unfold apply at hend
    cases hv : oneOperand vs with
    | error fault' =>
      rw [hv] at hend
      exact sparesTruth_oneOperand vs _ (hv.trans (congrArg _ (Except.error.inj hend)))
    | ok v =>
      rw [hv] at hend
      rcases Process.canEnd_andThen_error.mp hend with hcall | ⟨r, -, hr⟩
      · exact sparesTruth_call h v hcall
      · cases hr
  | _ => exact sparesTruth_apply h vars vs fault hend

/-- One that asks fails on the empty value; an assignment does if its variable holds a boolean. -/
theorem exists_wantsTruth {s : Scope} {o : Operator} (h : s.asksTruth o = true) :
    ∃ vs vars fault, fault.wantsTruth = true ∧ (s.apply o vs vars).CanEnd (.error fault) := by
  have hpair : ∀ b : Binary, b.asksTruth = true →
      b.apply (.bool true) .empty = .error (.unwanted (.kind .bool) .empty) := by
    intro b hb
    cases b with
    | and => rfl
    | or => rfl
    | _ => cases hb
  cases o with
  | not => exact ⟨[.empty], [], _, rfl, rfl⟩
  | binary b =>
    refine ⟨[.bool true, .empty], [], .unwanted (.kind .bool) .empty, rfl, ?_⟩
    show (do .ok (← b.apply (.bool true) .empty, []) : Except Fault (Value × Variables)) = _
    rw [hpair b h]
    rfl
  | assign =>
    refine ⟨[.text "x", .empty], [("x", .bool true)], .unwanted (.kind .bool) .empty, rfl, ?_⟩
    unfold apply
    rw [show s.writable = true from h]
    rfl
  | update b =>
    obtain ⟨hw, hb⟩ : s.writable = true ∧ b.asksTruth = true := by simpa [asksTruth] using h
    refine ⟨[.text "x", .empty], [("x", .bool true)], .unwanted (.kind .bool) .empty, rfl, ?_⟩
    unfold apply
    rw [hw]
    show (do .ok (.empty, ← Variables.assign _ "x" (← b.apply (.bool true) .empty)) :
      Except Fault (Value × Variables)) = _
    rw [hpair b hb]
    rfl
  | call f =>
    obtain ⟨rfl, hfree⟩ : f = "if" ∧ s.commands.contains f = false := by
      simpa [asksTruth] using h
    refine ⟨[.tuple [.empty, .empty, .empty]], [], .unwanted (.kind .bool) .empty, rfl, ?_⟩
    dsimp only [apply, oneOperand, call]
    rw [hfree]
    rfl
  | _ => cases h

/-- **The operators that want booleans are `!`, `&&` and `||`, the function `if` where no command has taken
its name, and, where assigning is allowed, `=`, `&&=` and `||=`.** -/
theorem asksTruth_iff (s : Scope) (o : Operator) : s.asksTruth o = true ↔
    ∃ vs vars fault, fault.wantsTruth = true ∧ (s.apply o vs vars).CanEnd (.error fault) := by
  constructor
  · exact exists_wantsTruth
  · rintro ⟨vs, vars, fault, hwants, hend⟩
    cases hasks : s.asksTruth o with
    | true => rfl
    | false =>
      rw [wantsTruth_of_canEnd hasks hend] at hwants
      cases hwants

end Scope

/-! ## Where a fault comes from -/

mutual

/-- The operators of a tree, from the top. -/
def Tree.operators : Tree → List Operator
  | .node o ts => o :: operatorsOfAll ts

def Tree.operatorsOfAll : List Tree → List Operator
  | [] => []
  | t :: ts => t.operators ++ operatorsOfAll ts

end

namespace Scope

/-- One of the operators, applied to something, fails so. -/
def FailsAmong (s : Scope) (os : List Operator) (fault : Fault) : Prop :=
  ∃ o ∈ os, ∃ vs vars, (s.apply o vs vars).CanEnd (.error fault)

variable {s : Scope} {fault : Fault}

theorem FailsAmong.mono {os os' : List Operator} (h : s.FailsAmong os fault) (hsub : os ⊆ os') :
    s.FailsAmong os' fault :=
  let ⟨o, ho, hend⟩ := h
  ⟨o, hsub ho, hend⟩

-- the induction is on the tree, with all operands of a node at once
mutual

/-- An evaluation has no faults but those of its operators. -/
theorem fault_of_eval : ∀ (t : Tree) (vars : Variables),
    (s.eval t vars).CanEnd (.error fault) → s.FailsAmong t.operators fault
  | .node o ts, vars, h => by
    rw [eval] at h
    rcases Process.canEnd_andThen_error.mp h with h | ⟨⟨vs, vars'⟩, -, h⟩
    · exact (fault_of_evalAll ts vars h).mono (List.subset_cons_self o _)
    · exact ⟨o, List.mem_cons_self, vs, vars', h⟩

theorem fault_of_evalAll : ∀ (ts : List Tree) (vars : Variables),
    (s.evalAll ts vars).CanEnd (.error fault) → s.FailsAmong (Tree.operatorsOfAll ts) fault
  | [], vars, h => by
    rw [evalAll] at h
    cases h
  | t :: ts, vars, h => by
    rw [evalAll] at h
    rcases Process.canEnd_andThen_error.mp h with h | ⟨⟨v, vars'⟩, -, h⟩
    · exact (fault_of_eval t vars h).mono (List.subset_append_left _ _)
    · rcases Process.canEnd_andThen_error.mp h with h | ⟨_, -, h⟩
      · exact (fault_of_evalAll ts vars' h).mono (List.subset_append_right _ _)
      · cases h

end

theorem fault_of_run {t : Tree} {vars : Variables} (h : (s.run t vars).CanEnd (.error fault)) :
    s.FailsAmong t.operators fault := by
  rcases Process.canEnd_andThen_error.mp h with h | ⟨_, -, h⟩
  · exact fault_of_eval t vars h
  · cases h

end Scope

end Script

end ReactiveRules
