import ReactiveRules.Proofs.Script.Afresh
import ReactiveRules.Proofs.Script.Arguments
import ReactiveRules.Proofs.Script.Truth

/-!
# `Proofs/Script/Failures.lean` — what the kind of a failure tells

A script that fails says how: its text could not be read, its evaluation failed, or it yielded something
that is no boolean. The last two are told apart by the fault alone. A fault for want of a boolean counts as
a wrong result wherever it arose, so **`notBoolean` also stands for the failure of an operator, and an
action can have it too; without an operator that asks for booleans the kinds tell what happened**
(`Evaluator.kinds_of_failures`).
-/

set_option autoImplicit false

namespace ReactiveRules

open Script

namespace Evaluator

variable {σ : Type} {e : Evaluator} {respond : σ → String → List Json → σ × Response}
  {text : String} {p : Purpose} {c : Context} {s : σ}

/-! ## How an evaluation ends -/

/-- The end of an evaluation before it is judged: it broke off with a message, the text could not be read,
or the script came to a value or a fault. -/
abbrev Ending := Except String (Except ScriptError (Except Fault Value))

/-- An evaluation that nobody has cancelled beforehand fails to read its text, or runs its tree. -/
theorem Sound.ending (he : e.Sound) : (e.attend respond p text c false s).2.result =
    match Tree.ofText text with
    | .error fault => .ok (.error (.compile text fault))
    | .ok tree => (((c.scope p).run tree c.initialVariables).attend respond false s).result.map .ok := by
  unfold Evaluator.attend
  dsimp only
  rw [he.start, looks, Bool.and_false, read]
  cases Tree.ofText text with
  | error fault => rfl
  | ok tree => rfl

/-- A fault that an evaluation ends with is that of an operator of its tree. -/
theorem Sound.fault_of_ending (he : e.Sound) {fault : Fault}
    (h : (e.attend respond p text c false s).2.result = .ok (.ok (.error fault))) :
    ∃ tree, Tree.ofText text = .ok tree ∧ (c.scope p).FailsAmong tree.operators fault := by
  rw [he.ending] at h
  cases htree : Tree.ofText text with
  | error fault' =>
    rw [htree] at h
    cases h
  | ok tree =>
    rw [htree] at h
    dsimp only at h
    cases hrun : (((c.scope p).run tree c.initialVariables).attend respond false s).result with
    | error m =>
      rw [hrun] at h
      cases h
    | ok r =>
      rw [hrun] at h
      cases h
      exact ⟨tree, rfl, Scope.fault_of_run (Process.canEnd_attend hrun)⟩

/-! ## What the kinds tell -/

/-- What the kind of an error tells of the end of an evaluation: the text could not be read, the evaluation
failed, or it yielded a value that does not do. Some faults may count as such a value. -/
inductive Tells (unfit : Value → Bool) (counts : Fault → Bool) (text : String) :
    Ending → ScriptError → Prop
  | unread {fault : Fault} (h : Tree.ofText text = .error fault) (ending : Ending) :
      Tells unfit counts text ending (.compile text fault)
  | failed {fault : Fault} (h : counts fault = false) :
      Tells unfit counts text (.ok (.ok (.error fault))) (.runtime text fault)
  | unfit {v : Value} (h : unfit v = true) :
      Tells unfit counts text (.ok (.ok (.ok v))) (.notBoolean text)
  | counted {fault : Fault} (h : counts fault = true) :
      Tells unfit counts text (.ok (.ok (.error fault))) (.notBoolean text)

/-- A condition has to yield a boolean. -/
def unfitTruth (v : Value) : Bool := v.kind != .bool

/-- An action yields what it likes. -/
def unfitResult (_ : Value) : Bool := false

theorem ofFault_eq (text : String) (fault : Fault) : ScriptError.ofFault text false fault =
    if fault.wantsTruth then .notBoolean text else .runtime text fault := by
  unfold ScriptError.ofFault
  rw [if_neg Bool.false_ne_true]
  split
  · rfl
  · next hother =>
    have hfalse : fault.wantsTruth = false := by
      unfold Fault.wantsTruth
      split
      · exact absurd rfl (hother _)
      · rfl
    rw [hfalse]
    rfl

/-- If values are judged by whether they do and faults by whether they count, the kinds tell so. -/
theorem Sound.tells {β : Type} {unfit : Value → Bool} {counts : Fault → Bool}
    {judged : Except Fault Value → Except ScriptError β} (he : e.Sound)
    (hvalue : ∀ v err, judged (.ok v) = .error err ↔ unfit v = true ∧ err = .notBoolean text)
    (hfault : ∀ fault, judged (.error fault) =
      .error (if counts fault then .notBoolean text else .runtime text fault)) (err : ScriptError) :
    let ending := (e.attend respond p text c false s).2.result
    ending.map (·.bind judged) = .ok (.error err) ↔ Tells unfit counts text ending err := by
  intro ending
  have hending : ending = _ := he.ending
  cases htree : Tree.ofText text with
  | error fault =>
    rw [htree] at hending
    rw [hending]
    constructor
    · intro h
      cases h
      exact .unread htree _
    · rintro (⟨h, -⟩ | _)
      rw [htree] at h
      cases h
      rfl
  | ok tree =>
    rw [htree] at hending
    dsimp only at hending
    have hread : ∀ fault, Tree.ofText text ≠ .error fault := by simp [htree]
    generalize (((c.scope p).run tree c.initialVariables).attend respond false s).result = r at hending
    rw [hending]
    rcases r with m | fault | v
    · constructor
      · intro h
        cases h
      · rintro ⟨h, -⟩
        exact absurd h (hread _)
    · show Except.ok (judged (.error fault)) = _ ↔ _
      rw [hfault]
      constructor
      · intro h
        cases hcounts : counts fault with
        | false =>
          rw [hcounts] at h
          cases h
          exact .failed hcounts
        | true =>
          rw [hcounts] at h
          cases h
          exact .counted hcounts
      · rintro (⟨h, -⟩ | h | _ | h)
        · exact absurd h (hread _)
        · rw [h]
          rfl
        · rw [h]
          rfl
    · show Except.ok (judged (.ok v)) = _ ↔ _
      constructor
      · intro h
        obtain ⟨hunfit, rfl⟩ := (hvalue v err).mp (Except.ok.inj h)
        exact .unfit hunfit
      · rintro (⟨h, -⟩ | _ | h)
        · exact absurd h (hread _)
        · exact congrArg Except.ok ((hvalue v _).mpr ⟨h, rfl⟩)

/-- It does not matter how faults would count that the evaluation did not end with. -/
theorem Tells.congr {unfit : Value → Bool} {counts counts' : Fault → Bool} {ending : Ending}
    {err : ScriptError} (h : Tells unfit counts text ending err)
    (hcounts : ∀ fault, ending = .ok (.ok (.error fault)) → counts fault = counts' fault) :
    Tells unfit counts' text ending err := by
  cases h with
  | unread h => exact .unread h _
  | failed h => exact .failed (hcounts _ rfl ▸ h)
  | unfit h => exact .unfit h
  | counted h => exact .counted (hcounts _ rfl ▸ h)

/-! ## Conditions and actions -/

theorem conditionTruth_error (text : String) (fault : Fault) :
    conditionTruth text false (.error fault) =
      .error (if fault.wantsTruth then .notBoolean text else .runtime text fault) :=
  congrArg Except.error (ofFault_eq text fault)

theorem conditionTruth_value (text : String) (v : Value) (err : ScriptError) :
    conditionTruth text false (.ok v) = .error err ↔
      unfitTruth v = true ∧ err = .notBoolean text := by
  cases v with
  | bool b => exact ⟨fun h => (by cases h), fun h => (by cases h.1)⟩
  | _ => exact ⟨fun h => ⟨rfl, (Except.error.inj h).symm⟩, fun h => congrArg Except.error h.2.symm⟩

theorem actionResult_error (text : String) (fault : Fault) :
    actionResult text false (.error fault) =
      .error (if fault.wantsTruth then .notBoolean text else .runtime text fault) :=
  congrArg Except.error (ofFault_eq text fault)

theorem actionResult_value (text : String) (v : Value) (err : ScriptError) :
    actionResult text false (.ok v) = .error err ↔
      unfitResult v = true ∧ err = .notBoolean text :=
  ⟨fun h => (by cases h), fun h => (by cases h.1)⟩

/-- No operator of the text asks for a boolean. -/
def Undemanding (p : Purpose) (text : String) (c : Context) : Prop :=
  ∀ tree, Tree.ofText text = .ok tree → ∀ o ∈ tree.operators, (c.scope p).asksTruth o = false

/-- Then no fault is for want of one. -/
theorem Sound.wantsTruth_of_undemanding (he : e.Sound) (h : Undemanding p text c) {fault : Fault}
    (hend : (e.attend respond p text c false s).2.result = .ok (.ok (.error fault))) :
    fault.wantsTruth = false := by
  obtain ⟨tree, htree, o, ho, vs, vars, hfails⟩ := he.fault_of_ending hend
  exact Scope.wantsTruth_of_canEnd (h tree htree o ho) hfails

/-- **What the kind of a failure tells.** Among any surroundings that do not cancel, a condition fails with
`compile` just when its text cannot be read, with `runtime` when an operator of its tree has failed for another
reason than that a boolean was wanted, and with `notBoolean` when it has come to a value that is no boolean or
an operator has failed for want of a boolean; an action fails likewise, except that every value does. Every
fault is that of an operator of the tree. If none of them asks for a boolean, `notBoolean` stands for values
alone, `runtime` for all faults, and no action fails with `notBoolean`. -/
theorem kinds_of_failures (he : e.Sound) (respond : σ → String → List Json → σ × Response)
    (text : String) (c : Context) (s : σ) :
    let ended (p : Purpose) := (e.attend respond p text c false s).2
    let judged := (e.judge respond text c false s).2.result
    let acted := (e.act respond text c false s).2.result
    ((ended .condition).cancelled = false →
      (∀ err, judged = .ok (.error err) ↔
        Tells unfitTruth Fault.wantsTruth text (ended .condition).result err) ∧
      (Undemanding .condition text c → ∀ err, judged = .ok (.error err) ↔
        Tells unfitTruth (fun _ => false) text (ended .condition).result err)) ∧
    ((ended .action).cancelled = false →
      (∀ err, acted = .ok (.error err) ↔
        Tells unfitResult Fault.wantsTruth text (ended .action).result err) ∧
      (Undemanding .action text c →
        (∀ err, acted = .ok (.error err) ↔
          Tells unfitResult (fun _ => false) text (ended .action).result err) ∧
        acted ≠ .ok (.error (.notBoolean text)))) ∧
    ∀ p fault, (ended p).result = .ok (.ok (.error fault)) → ∃ tree, Tree.ofText text = .ok tree ∧
      ∃ o ∈ tree.operators, (∃ vs vars, ((c.scope p).apply o vs vars).CanEnd (.error fault)) ∧
        (fault.wantsTruth = true → (c.scope p).asksTruth o = true) := by
  intro ended judged acted
  -- where nothing asks for a boolean, it makes no difference that a fault for want of one would count
  have hspared : ∀ {p : Purpose} {unfit : Value → Bool}, Undemanding p text c → ∀ {err : ScriptError},
      Tells unfit Fault.wantsTruth text (ended p).result err ↔
        Tells unfit (fun _ => false) text (ended p).result err := fun hnone =>
    ⟨fun h => h.congr fun _ hend => he.wantsTruth_of_undemanding hnone hend,
      fun h => h.congr fun _ hend => (he.wantsTruth_of_undemanding hnone hend).symm⟩
  refine ⟨fun hcalm => ?_, fun hcalm => ?_, fun p fault h => ?_⟩
  · have htells : ∀ err, judged = .ok (.error err) ↔
        Tells unfitTruth Fault.wantsTruth text (ended .condition).result err := by
      intro err
      have hjudged : judged = (ended .condition).result.map (·.bind
          (conditionTruth text (ended .condition).cancelled)) := rfl
      rw [hjudged, hcalm]
      exact he.tells (conditionTruth_value text) (conditionTruth_error text) err
    exact ⟨htells, fun hnone err => (htells err).trans (hspared hnone)⟩
  · have htells : ∀ err, acted = .ok (.error err) ↔
        Tells unfitResult Fault.wantsTruth text (ended .action).result err := by
      intro err
      have hacted : acted = (ended .action).result.map (·.bind
          (actionResult text (ended .action).cancelled)) := rfl
      rw [hacted, hcalm]
      exact he.tells (actionResult_value text) (actionResult_error text) err
    refine ⟨htells, fun hnone => ⟨fun err => (htells err).trans (hspared hnone), fun h => ?_⟩⟩
    have htold := (hspared hnone).mp ((htells _).mp h)
    generalize (ended .action).result = ending at htold
    cases htold with
    | unfit h => cases h
    | counted h => cases h
  · obtain ⟨tree, htree, o, ho, vs, vars, hfails⟩ := he.fault_of_ending h
    exact ⟨tree, htree, o, ho, ⟨vs, vars, hfails⟩, fun hwants =>
      ((c.scope p).asksTruth_iff o).mpr ⟨vs, vars, fault, hwants, hfails⟩⟩

/-- A negation reads as the operator with its operand. -/
theorem ofTokens_not (x : String) :
    Tree.ofTokens [.not, .name x] = .ok (.node .group [.node .not [.leaf (.read x)]]) := by
  rw [ofTokens_eq, growAll_cons]
  show (emptyGroup.insert (.leaf .not) true >>= fun top => .ok [top]) >>= _ >>= _ = _
  rw [insert_leaf]
  show growAll _ [.name x] [.node .group [.leaf .not]] >>= _ = _
  rw [growAll_cons]
  show (Tree.insert _ (.leaf (.read x)) true >>= fun top => .ok [top]) >>= _ >>= _ = _
  rw [insert_operand rfl rfl]
  rfl

/-- With the value 1, `!value` ends with the fault that 1 is no boolean. -/
theorem ending_not (p : Purpose) : (({} : Evaluator).attend echo p "!value" (holding (.int 1)) false ()).2 =
    ⟨.ok (.ok (.error (.unwanted (.kind .bool) (.int 1)))), false, (), []⟩ := by
  have hread : Tree.ofText "!value" = .ok (.node .group [.node .not [.leaf (.read "value")]]) :=
    ofTokens_not "value"
  have hsound : ({} : Evaluator).Sound := sound_clear {}
  unfold Evaluator.attend
  dsimp only
  rw [hsound.start, looks, Bool.and_false, read, hread]
  rfl

/-- Then the condition and the action fail with `notBoolean`. -/
theorem not_integer :
    let c := holding (.int 1)
    (({} : Evaluator).judge echo "!value" c false ()).2.result
        = .ok (.error (.notBoolean "!value")) ∧
      (({} : Evaluator).act echo "!value" c false ()).2.result
        = .ok (.error (.notBoolean "!value")) := by
  intro c
  have hsound : ({} : Evaluator).Sound := sound_clear {}
  obtain ⟨hjudge, hact, -⟩ := kinds_of_failures hsound echo "!value" c ()
  dsimp only at hjudge hact
  rw [ending_not] at hjudge hact
  exact ⟨((hjudge rfl).1 _).mpr (.counted rfl), ((hact rfl).1 _).mpr (.counted rfl)⟩

/-- **A fault counts as a result that is no boolean, also in an action.** -/
theorem fault_taken_for_result :
    let c := holding (.int 1)
    let ended (p : Purpose) := (({} : Evaluator).attend echo p "!value" c false ()).2
    (∀ p, (ended p).cancelled = false ∧
      (ended p).result = .ok (.ok (.error (.unwanted (.kind .bool) (.int 1))))) ∧
    ¬(∀ err, (({} : Evaluator).judge echo "!value" c false ()).2.result = .ok (.error err) ↔
      Tells unfitTruth (fun _ => false) "!value" (ended .condition).result err) ∧
    (({} : Evaluator).act echo "!value" c false ()).2.result
      = .ok (.error (.notBoolean "!value")) := by
  intro c ended
  have hended : ∀ p, ended p = _ := ending_not
  refine ⟨fun p => by rw [hended]; exact ⟨rfl, rfl⟩, fun hkinds => ?_, ?_⟩
  · have hjudge : (({} : Evaluator).judge echo "!value" c false ()).2.result
        = .ok (.error (.notBoolean "!value")) := by
      show ((ended .condition).map fun flag r => r.bind (conditionTruth "!value" flag)).result = _
      rw [hended]
      rfl
    have htells := (hkinds _).mp hjudge
    rw [hended] at htells
    cases htells with
    | counted h => cases h
  · show ((ended .action).map fun flag r => r.bind (actionResult "!value" flag)).result = _
    rw [hended]
    rfl

end Evaluator

end ReactiveRules
