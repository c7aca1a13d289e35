import ReactiveRules.Proofs.Engine.Deferral

/-!
# `Proofs/Engine/Memory.lean` — what rules remember

A notification that is admitted has its value recorded as a fact of its instance, in the same step.
**Nothing else adds a fact to an instance** (`Core.Step.recalls`): what was recorded stays as it is
until it is recorded anew, or swept or cleared away.
-/

set_option autoImplicit false

namespace ReactiveRules

namespace Scene

variable {now : Nat} {S S' : Scene} {ls : List Listener}

/-! ## Turns -/

theorem facts_conclude (S : Scene) (now : Nat) (result : Except RuleError Json) :
    (S.conclude now result).rule.facts.records ⊆ S.rule.facts.records := by
  have h : ∀ success, (attempted now success S.rule.toRule).facts.records ⊆ S.rule.facts.records := by
    intro success
    have hf : (attempted now success S.rule.toRule).facts
        = if S.rule.definition.clearFacts then .empty else S.rule.facts := by
      unfold attempted Rule.markCompleted
      split <;> rfl
    rw [hf]
    split
    · exact List.nil_subset _
    · exact List.Subset.refl _
  cases result with
  | ok v => exact h true
  | error e => exact h false

theorem Acts.facts (h : Acts now S S') : S'.rule.facts.records ⊆ S.rule.facts.records := by
  cases h with
  | unread e => exact facts_conclude (S.mark .attempted) now _
  | acting e => exact List.Subset.refl _

theorem Decides.facts (h : Decides now S S') : S'.rule.facts.records ⊆ S.rule.facts.records := by
  cases h with
  | misjudged e => exact List.Subset.refl _
  | declines => exact List.Subset.refl _
  | proceeds hp =>
    cases hp with
    | rests hr => exact List.Subset.refl _
    | delays hr hd => exact List.Subset.refl _
    | acts hr hd ha => exact ha.facts

/-! A run that starts comes no further than to the judgement, so the facts stay as they are. -/

theorem Starts.facts (h : Starts now ls S S') : S'.rule.facts = S.rule.facts := by
  cases h with
  | rests hr => rfl
  | broke hr hv => rfl
  | vetoed hr hv => rfl
  | judges hr hv hj =>
    cases hj with
    | unread e => rfl
    | judging e => rfl

theorem Claims.facts (h : Claims now ls S S') : S'.rule.facts = S.rule.facts := by
  cases h with
  | retired h => rfl
  | starts h hs ha => exact ha.facts
  | busy h hs ha => rfl
  | waits h hs ha => rfl

/-- What a turn does to the facts of the rule. -/
inductive Recalls (now : Nat) (S S' : Scene) : Prop
  | records (hs : S.run.stage = .arriving) (ha : S'.run.admitted = true)
    (hf : S'.rule.facts = (S.accept now).rule.facts)
  | keeps (ha : S'.run.admitted = S.run.admitted)
    (hf : S'.rule.facts.records ⊆ S.rule.facts.records)

/-- **A turn records the value of a notification that it admits, and no other.** -/
theorem Turn.recalls (h : Turn now ls S S') : S.Recalls now S' := by
  cases h with
  | paused hs hp => exact .keeps rfl (List.Subset.refl _)
  | rests hs hp hr => exact .keeps rfl (List.Subset.refl _)
  | arrives hs hp hr hd ha => exact .records hs ha.calm.admitted ha.facts
  | @fires g due c hs hd _ ha =>
    have hf : (S.mapRule (·.finishPending g)).rule.facts = S.rule.facts := by
      simp only [mapRule, Instance.mapRule, Rule.finishPending_eq]
    exact .keeps ha.calm.admitted (by rw [ha.facts, hf]; exact List.Subset.refl _)
  | cancelled hs => exact .keeps rfl (List.Subset.refl _)
  | gains hs hw hc ha =>
    exact .keeps ((S.calm_hold _).trans ha.calm).admitted (by rw [ha.facts]; exact List.Subset.refl _)
  | leaves hs hr => exact .keeps rfl (List.Subset.refl _)
  | queues hs hw hc hr => exact .keeps rfl (List.Subset.refl _)
  | acts hs hd ha => exact .keeps ha.calm.admitted ha.facts
  | forgoes hs hr => exact .keeps rfl (List.Subset.refl _)
  | broke hs m => exact .keeps rfl (List.Subset.refl _)
  | decides hs ha => exact .keeps ha.calm.admitted ha.facts
  | concludes hs result =>
    exact .keeps (S.calm_conclude now result).admitted (S.facts_conclude now result)

end Scene

namespace Core

variable {C C' : Core}

/-! ## Steps -/

/-- What is recorded of the notification `r` if it is admitted. -/
def recordOf (C : Core) (r : Nat) : FactRecord :=
  { fact := ⟨(C.runAt r).trigger.name, (C.runAt r).trigger.value⟩
    source := (C.runAt r).trigger.node, created := C.now
    validity := (C.ruleAt (C.runAt r).rule).definition.validity }

/-- The facts of an instance, the latest record of each name. -/
def factsAt (C : Core) (n : Nat) : FactMemory := (C.ruleAt n).facts

/-- What a step does to the facts of all instances. -/
inductive Recalls (C C' : Core) : Prop
  /-- It admits one notification, and records its value. -/
  | records {r : Nat} (hs : (C.runAt r).stage = .arriving) (ha : ∀ m, C.Accepts C' m ↔ m = r)
    (hf : ∀ n, C'.factsAt n = if (C.runAt r).rule = n then
      (C.factsAt n).record C.now (C.recordOf r).source (C.recordOf r).fact (C.recordOf r).validity
      else C.factsAt n)
  /-- It admits nothing, and at most takes facts away. -/
  | keeps (ha : ∀ m, ¬ C.Accepts C' m) (hf : ∀ n, (C'.factsAt n).records ⊆ (C.factsAt n).records)

theorem Recalls.of_rest (ha : ∀ m, (C'.runAt m).admitted = (C.runAt m).admitted)
    (hf : ∀ n, (C'.factsAt n).records ⊆ (C.factsAt n).records) : C.Recalls C' := by
  refine .keeps (fun m hm => ?_) hf
  rw [Accepts, ha m] at hm
  exact absurd (hm.1.symm.trans hm.2) Bool.noConfusion

theorem factsAt_modifyInstance (C : Core) (n : Nat) {f : Instance → Instance}
    (hf : ∀ i : Instance, (f i).facts = i.facts) (m : Nat) :
    (C.modifyInstance n f).factsAt m = C.factsAt m := by
  unfold factsAt ruleAt modifyInstance
  rcases getD_modify_or C.instances n f default m with hm | ⟨-, hm⟩ <;> rw [hm]
  exact hf _

theorem factsAt_append (C : Core) (d : Definition) (m : Nat) :
    ((C.instances ++ [Instance.ofDefinition d]).getD m default).facts = C.factsAt m := by
  unfold factsAt ruleAt
  rcases getD_concat_or C.instances (Instance.ofDefinition d) default m with hm | ⟨hm, hm'⟩
  · rw [hm]
  · rw [hm, hm']
    rfl

theorem factsAt_retire (C : Core) (n : Nat) (p : Option (Nat × Nat)) (m : Nat) :
    (C.retire n p).factsAt m = C.factsAt m := by
  rw [retire, factsAt, ruleAt_cancelPending]
  exact C.factsAt_modifyInstance n (f := .mapRule Rule.retire) (fun _ => rfl) m

theorem factsAt_unguard (C : Core) (name : String) (m : Nat) :
    (C.unguard name).factsAt m = C.factsAt m := by
  unfold unguard
  split
  · exact C.factsAt_modifyInstance _ (f := fun i => { i with slot := i.slot.release.1 })
      (fun _ => rfl) m
  · rfl

theorem factsAt_define (C : Core) (d : Definition) (m : Nat) :
    (C.define d).factsAt m = C.factsAt m := by
  unfold define
  split
  · exact (factsAt_retire _ _ _ m).trans (C.factsAt_append d m)
  · exact C.factsAt_append d m

theorem factsAt_put (C : Core) {S : Scene} (hn : S.run.rule < C.instances.length) (m : Nat) :
    (C.put S).factsAt m = if S.run.rule = m then S.rule.facts else C.factsAt m := by
  rw [factsAt, ruleAt_put C hn]
  split <;> rfl

theorem admitted_put_ne (C : Core) {S : Scene} {m : Nat} (hm : m ≠ S.number) :
    ((C.put S).runAt m).admitted = (C.runAt m).admitted := by rw [runAt_put_ne C (Ne.symm hm)]

theorem recalls_turn (hv : C.Valid) (hu : C.Unheard) {r : Nat} (hr : r < C.runs.length) {S : Scene}
    (ht : Scene.Turn C.now C.listeners (C.scene r) S) : C.Recalls (C.put S) := by
  have hnum : S.number = r := ht.follows.number
  have hrule : S.run.rule = (C.runAt r).rule := ht.follows.rule
  have hn : S.run.rule < C.instances.length := hrule ▸ hv.run r hr
  have hself := runAt_put_self C hnum hr
  cases ht.recalls with
  | records hs ha hf =>
    refine .records hs (fun m => ⟨fun hm => ?_, ?_⟩) fun n => ?_
    · by_contra hmr
      rw [Accepts, admitted_put_ne C (hnum ▸ hmr)] at hm
      exact absurd (hm.1.symm.trans hm.2) Bool.noConfusion
    · rintro rfl
      exact ⟨(hu m hs).1, hself ▸ ha⟩
    · rw [factsAt_put C hn, hrule, hf]
      split
      · next h =>
        subst h
        rfl
      · rfl
  | keeps ha hf =>
    refine .of_rest (fun m => ?_) fun n => ?_
    · by_cases hmr : m = r
      · rw [hmr, hself]
        exact ha
      · exact admitted_put_ne C (hnum ▸ hmr)
    · rw [factsAt_put C hn, hrule]
      split
      · next h =>
        subst h
        exact hf
      · exact List.Subset.refl _

theorem recalls_defer (hv : C.Valid) (hu : C.Unheard) {r : Nat} (hr : r < C.runs.length)
    (hd : Scene.Defers C.now (C.scene r)) : C.Recalls
      ((C.cancelPending (C.scene r).rule.pending).put (((C.scene r).accept C.now).defer C.now)) := by
  have hn : (((C.scene r).accept C.now).defer C.now).run.rule
      < (C.cancelPending (C.scene r).rule.pending).instances.length := by
    rw [cancelPending_instances]
    exact hv.run r hr
  have hself := runAt_put_self (C.cancelPending (C.scene r).rule.pending)
    (S := ((C.scene r).accept C.now).defer C.now) (r := r) rfl (by simpa using hr)
  refine .records hd.stage (fun m => ⟨fun hm => ?_, ?_⟩) fun n => ?_
  · by_contra hmr
    rw [Accepts, admitted_put_ne _ hmr, admitted_cancelPending] at hm
    exact absurd (hm.1.symm.trans hm.2) Bool.noConfusion
  · rintro rfl
    exact ⟨(hu m hd.stage).1, by rw [hself]; rfl⟩
  · rw [factsAt_put _ hn]
    split
    · next h =>
      have h : (C.runAt r).rule = n := h
      subst h
      rw [if_pos rfl]
      rfl
    · next h =>
      have h : (C.runAt r).rule ≠ n := h
      rw [if_neg h, factsAt, ruleAt_cancelPending]
      rfl

/-- **A step records the value of a notification that it admits, and adds no other fact.** -/
theorem Change.recalls (h : C.Change C') (hv : C.Valid) (hu : C.Unheard) : C.Recalls C' := by
  have hsame : ∀ {C₁ : Core} {n : Nat}, C₁.factsAt n = C.factsAt n →
      (C₁.factsAt n).records ⊆ (C.factsAt n).records := fun h => h ▸ List.Subset.refl _
  cases h with
  | turns hr ht => exact recalls_turn hv hu hr ht
  | defers hr hd => exact recalls_defer hv hu hr hd
  | @spawns n hn t a c =>
    exact .of_rest (fun m => (C.runAt_spawn n t a c m).2) fun _ => List.Subset.refl _
  | @abandons r hr ha hs =>
    refine .of_rest (fun m => ?_) fun n => ?_
    · by_cases hmr : m = r
      · have hself := C.runAt_put_self (S := (C.scene r).abandon) (r := r) rfl hr
        rw [hmr, hself]
        rfl
      · exact C.admitted_put_ne (S := (C.scene r).abandon) hmr
    · rw [factsAt_put C (S := (C.scene r).abandon) (hv.run r hr)]
      split
      · next h =>
        subst h
        exact List.Subset.refl _
      · exact List.Subset.refl _
  | adds d => exact .of_rest (fun _ => rfl) fun n => hsame (C.factsAt_append d n)
  | @defines d hd =>
    refine .of_rest (fun m => ?_) fun n => hsame (C.factsAt_define d n)
    unfold define
    split
    · rw [retire, admitted_cancelPending]
      rfl
    · rfl
  | @deregisters id n hn =>
    refine .of_rest (fun m => ?_) fun m => hsame (factsAt_retire _ n _ m)
    rw [deregister, retire, admitted_cancelPending]
    rfl
  | tweaks ha => exact .of_rest (fun _ => rfl) fun n => (alike_getD ha n).facts
  | @guards n slot hs name =>
    refine .of_rest (fun m => congrArg Run.admitted (unguard_runAt _ name m)) fun m => hsame ?_
    exact (factsAt_unguard _ name m).trans
      (C.factsAt_modifyInstance n (f := fun i => { i with slot }) (fun _ => rfl) m)
  | unguards name =>
    exact .of_rest (fun m => congrArg Run.admitted (C.unguard_runAt name m))
      fun m => hsame (C.factsAt_unguard name m)
  | _ => exact .of_rest (fun _ => rfl) fun _ => List.Subset.refl _

theorem Step.recalls (h : C.Step C') (hv : C.Valid) (hu : C.Unheard) : C.Recalls C' := by
  cases h with
  | change h => exact h.recalls hv hu
  | forgets => exact .of_rest (fun _ => rfl) fun _ => List.Subset.refl _
  | pass ht ha => exact .of_rest (fun _ => rfl) fun n => (alike_getD ha n).facts

end Core

end ReactiveRules
