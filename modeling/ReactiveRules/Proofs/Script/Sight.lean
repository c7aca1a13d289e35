import Mathlib.Data.List.Nodup
import ReactiveRules.Proofs.Facts.Latest
import ReactiveRules.Proofs.Script.Variables

/-!
# `Proofs/Script/Sight.lean` — what a script can see

A script sees facts in two ways: as variables, where the first of a name counts and the trigger comes
before all facts, and through `fact`, where the last of a name counts. **Since a memory holds one fact of
each name the two agree, whatever order the facts are listed in** (`Context.sees_trigger_and_facts`).
-/

set_option autoImplicit false

namespace ReactiveRules

open Script

/-! ## Facts by name -/

namespace Fact

/-- The first fact of a name. -/
def named? (fs : List Fact) (x : String) : Option Fact := fs.find? (·.name == x)

variable {fs fs' : List Fact} {x : String} {f : Fact}

theorem named?_iff (hd : (fs.map (·.name)).Nodup) : named? fs x = some f ↔ f ∈ fs ∧ f.name = x := by
  unfold named?
  constructor
  · intro h
    exact ⟨List.mem_of_find?_eq_some h, by simpa using List.find?_some h⟩
  · rintro ⟨hf, rfl⟩
    obtain ⟨g, hg⟩ : ∃ g, fs.find? (·.name == f.name) = some g :=
      Option.isSome_iff_exists.mp (List.find?_isSome.mpr ⟨f, hf, beq_self_eq_true _⟩)
    -- there is only one fact of the name
    have hname : g.name = f.name := by simpa using List.find?_some hg
    rw [hg, List.inj_on_of_nodup_map hd (List.mem_of_find?_eq_some hg) hf hname]

theorem named?_eq_none_iff : named? fs x = none ↔ ∀ f ∈ fs, f.name ≠ x := by
  unfold named?
  simp [List.find?_eq_none]

/-- Of facts with different names the same one has the name, in whatever order they are listed. -/
theorem named?_perm (h : fs.Perm fs') (hd : (fs'.map (·.name)).Nodup) :
    named? fs x = named? fs' x := by
  refine Option.ext fun f => ?_
  rw [named?_iff hd, named?_iff ((h.map _).nodup_iff.mpr hd), h.mem_iff]

end Fact

/-! ## Variables and functions -/

namespace Context

open ReactiveRules.Fact (named?)

/-- A variable that is there stays as it is; a name that is free gets the value of the first fact of that
name, if it can be the name of a variable. -/
theorem get?_foldl_addFact (fs : List Fact) (vars : Variables) (x : String) :
    (fs.foldl addFact vars).get? x =
      (vars.get? x).or (if isIdentifier x then (named? fs x).map (Value.ofJson ·.value) else none) := by
  induction fs generalizing vars with
  | nil => simp [named?]
  | cons f rest ih =>
    rw [List.foldl_cons, ih]
    unfold addFact named?
    rw [List.find?_cons]
    by_cases hname : f.name = x
    · subst hname
      cases hfree : vars.get? f.name <;> cases hid : isIdentifier f.name <;>
        simp [hfree, Variables.get?_set]
    · have hne : (f.name == x) = false := beq_eq_false_iff_ne.mpr hname
      rw [hne]
      split
      · rw [Variables.get?_set, if_neg (Ne.symm hname)]
      · rfl

/-- What a name stands for when a script starts. -/
theorem get?_initialVariables (c : Context) (x : String) : c.initialVariables.get? x =
    ((triggerVariables c.trigger).get? x).or
      (if isIdentifier x then (named? c.facts x).map (Value.ofJson ·.value) else none) :=
  get?_foldl_addFact c.facts _ x

/-- What `fact` answers: the value of the last fact of the name. -/
theorem fact_scope (c : Context) (p : Purpose) (x : String) : (c.scope p).fact (.text x) =
    .ok (((named? c.facts.reverse x).map (Value.ofJson ·.value)).getD .empty) := by
  have hfind : (c.scope p).facts.reverse.find? (·.1 == x) =
      (named? c.facts.reverse x).map fun f => (f.name, f.value) := by
    unfold scope named?
    rw [← List.map_reverse, List.find?_map]
    rfl
  unfold Scope.fact Value.string
  dsimp only [bind, Except.bind]
  rw [hfind]
  cases named? c.facts.reverse x with
  | none => rfl
  | some f => rfl

/-! ## What is there to see -/

/-- A script cannot tell the two from each other: its variables, what it calls and what it does are the
same. -/
structure Alike (c c' : Context) : Prop where
  vars : ∀ x, c.initialVariables.get? x = c'.initialVariables.get? x
  call : ∀ p f v, (c.scope p).call f v = (c'.scope p).call f v
  process : ∀ p t, c.process p t = c'.process p t

/-- The names that always stand for the trigger. -/
def triggerNames : List String := ["value", "node", "attribute", "evaluation_type", "rule_id"]

/-- The trigger under its five names, with no fact in the place of one. -/
structure ShowsTrigger (c : Context) (t : Trigger) : Prop where
  value : c.initialVariables.get? "value" = some (Value.ofJson t.value)
  node : c.initialVariables.get? "node" = some (.text t.node)
  name : c.initialVariables.get? "attribute" = some (.text t.name)
  aspect : c.initialVariables.get? "evaluation_type" = some (.text t.aspect.name)
  rule : c.initialVariables.get? "rule_id" = some (.text t.rule)

/-- Each of the facts is a variable if its name can be one and is not the trigger's, and `fact` finds every
one of them, and nothing else. -/
structure ShowsFacts (c : Context) (facts : List Fact) : Prop where
  variable_iff : ∀ x ∉ triggerNames, (c.initialVariables.get? x).isSome ↔
    isIdentifier x ∧ ∃ f ∈ facts, f.name = x
  variable_eq : ∀ x ∉ triggerNames, ∀ v, c.initialVariables.get? x = some v →
    ∀ p, (c.scope p).fact (.text x) = .ok v
  fact : "fact" ∉ c.commands → ∀ p, ∀ f ∈ facts,
    (c.scope p).call "fact" (.text f.name) = .done (.ok (Value.ofJson f.value))
  no_fact : "fact" ∉ c.commands → ∀ p x, (∀ f ∈ facts, f.name ≠ x) →
    (c.scope p).call "fact" (.text x) = .done (.ok .empty)

variable {c c' : Context}

theorem get?_triggerVariables (t : Trigger) {x : String} (hx : x ∉ triggerNames) :
    (triggerVariables t).get? x = none := by
  unfold triggerNames at hx
  simp only [List.mem_cons, List.not_mem_nil, or_false, not_or, ← ne_eq] at hx
  simp [triggerVariables, Variables.get?, hx.1.symm, hx.2.1.symm, hx.2.2.1.symm, hx.2.2.2.1.symm,
    hx.2.2.2.2.symm]

theorem showsTrigger (c : Context) : c.ShowsTrigger c.trigger := by
  constructor <;> rw [get?_initialVariables] <;> rfl

/-- With different names `fact` finds the one fact of the name. -/
theorem fact_scope_of_nodup (hd : (c.facts.map (·.name)).Nodup) (p : Purpose) (x : String) :
    (c.scope p).fact (.text x) =
      .ok (((named? c.facts x).map (Value.ofJson ·.value)).getD .empty) := by
  rw [fact_scope, Fact.named?_perm c.facts.reverse_perm hd]

/-- It makes no difference in which order facts with different names are listed. -/
theorem alike_of_perm (htrigger : c.trigger = c'.trigger) (hcommands : c.commands = c'.commands)
    (hfacts : c.facts.Perm c'.facts) (hd : (c'.facts.map (·.name)).Nodup) : c.Alike c' := by
  have hd' : (c.facts.map (·.name)).Nodup := (hfacts.map _).nodup_iff.mpr hd
  have hvars : c.initialVariables.Agree c'.initialVariables := fun x => by
    rw [get?_initialVariables, get?_initialVariables, htrigger, Fact.named?_perm hfacts hd]
  have hfact : ∀ p v, (c.scope p).fact v = (c'.scope p).fact v := by
    intro p v
    cases v with
    | text x => rw [fact_scope_of_nodup hd', fact_scope_of_nodup hd, Fact.named?_perm hfacts hd]
    | _ => rfl
  have hcall : ∀ p f v, (c.scope p).call f v = (c'.scope p).call f v := by
    intro p f v
    unfold Scope.call
    rw [hfact]
    show (if c.commands.contains f then _ else _) = if c'.commands.contains f then _ else _
    rw [hcommands]
  have hscope : ∀ p, (c.scope p).Alike (c'.scope p) := fun p => ⟨rfl, hcall p⟩
  exact ⟨hvars, hcall, fun p t => (hscope p).run hvars t⟩

/-- A free name that can be a variable's stands for the fact of the name. -/
theorem get?_of_free (c : Context) {x : String} (hx : x ∉ triggerNames) :
    c.initialVariables.get? x =
      if isIdentifier x then (named? c.facts x).map (Value.ofJson ·.value) else none := by
  rw [get?_initialVariables, get?_triggerVariables _ hx, Option.none_or]

theorem call_fact (hc : "fact" ∉ c.commands) (p : Purpose) (v : Value) :
    (c.scope p).call "fact" v = .done ((c.scope p).fact v) := by
  unfold Scope.call
  rw [if_neg (by simpa [scope] using hc)]
  rfl

theorem showsFacts (hd : (c.facts.map (·.name)).Nodup) : c.ShowsFacts c.facts where
  variable_iff := by
    intro x hx
    rw [c.get?_of_free hx]
    split
    · next hid =>
      rw [Option.isSome_map, ← Option.ne_none_iff_isSome, ne_eq, Fact.named?_eq_none_iff]
      simp [hid]
    · next hid => simp [hid]
  variable_eq := by
    intro x hx v hv p
    rw [c.get?_of_free hx] at hv
    split at hv
    · rw [fact_scope_of_nodup hd, hv]
      rfl
    · cases hv
  fact := by
    intro hc p f hf
    rw [call_fact hc, fact_scope_of_nodup hd, (Fact.named?_iff hd).mpr ⟨hf, rfl⟩]
    rfl
  no_fact := by
    intro hc p x hx
    rw [call_fact hc, fact_scope_of_nodup hd, Fact.named?_eq_none_iff.mpr hx]
    rfl

/-- The same facts in another order. -/
theorem ShowsFacts.perm {facts facts' : List Fact} (h : c.ShowsFacts facts)
    (hp : facts.Perm facts') : c.ShowsFacts facts' where
  variable_iff := fun x hx => by simp only [h.variable_iff x hx, hp.mem_iff]
  variable_eq := h.variable_eq
  fact := fun hc p f hf => h.fact hc p f (hp.mem_iff.mpr hf)
  no_fact := fun hc p x hx => h.no_fact hc p x fun f hf => hx f (hp.mem_iff.mp hf)

/-- **Whatever a memory was told, at any time and for any trigger**: in every order of the facts that
count a script sees the trigger under its five names and each of the facts, and it cannot tell the orders
from each other. -/
theorem sees_trigger_and_facts (ms : List FactMemory.Move) (now : Nat) (t : Trigger)
    (commands : List String) (facts : List Fact)
    (hfacts : facts.Perm ((FactMemory.Moment.after {} ms).memory.validFacts now)) :
    let counting := (FactMemory.Moment.after {} ms).memory.validFacts now
    let c : Context := ⟨t, facts, commands⟩
    c.Alike ⟨t, counting, commands⟩ ∧ c.ShowsTrigger t ∧ c.ShowsFacts counting := by
  intro counting c
  have hd : (counting.map (·.name)).Nodup :=
    (FactMemory.Moment.keeps_empty.after ms).distinct.nodup_validFacts now
  have hd' : (facts.map (·.name)).Nodup := (hfacts.map _).nodup_iff.mpr hd
  exact ⟨alike_of_perm rfl rfl hfacts hd, c.showsTrigger, (showsFacts (c := c) hd').perm hfacts⟩

/-- Three facts, listed backwards: one has a name of the trigger's, one a name that no variable can have. -/
theorem sees_facts_backwards :
    let ms : List FactMemory.Move :=
      [.record "r1" ⟨"value", .str "low"⟩ .always, .record "r1" ⟨"pump 1", .bool true⟩ .always,
       .pass 5, .record "r2" ⟨"pressure", .int 7⟩ .always]
    let t : Trigger := ⟨"r3", "ns=2;s=Motor1", "Speed", .int 1500, .attribute⟩
    let counting := (FactMemory.Moment.after {} ms).memory.validFacts 5
    let c : Context := ⟨t, counting.reverse, []⟩
    counting.map (·.name) = ["value", "pump 1", "pressure"] ∧ counting.reverse.Perm counting ∧
    c.Alike ⟨t, counting, []⟩ ∧ c.ShowsTrigger t ∧ c.ShowsFacts counting :=
  ⟨rfl, List.reverse_perm _, sees_trigger_and_facts _ 5 _ [] _ (List.reverse_perm _)⟩

end Context

end ReactiveRules
