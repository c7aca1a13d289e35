import ReactiveRules.Proofs.Dispatch.Forgetting
import ReactiveRules.Proofs.Likeness.Whole

/-!
# `Proofs/Engine/Tidy.lean` — what housekeeping leaves of an engine

An engine is tidy when its queue has forgotten what it may forget, expired facts are gone and nobody
has written down that they went. Two engines resemble each other if they are the same when tidy
(`Engine.Resembles`). **Whatever single thing is changed in two engines that resemble each other,
they resemble each other afterwards**: nothing that an engine does depends on what housekeeping
takes away.
-/

set_option autoImplicit false

namespace ReactiveRules

/-! ## Tidy engines -/

/-- Does an entry tell of housekeeping? -/
def Entry.isHousekeeping : Entry → Bool
  | .notice (.housekeeping ..) => true
  | _ => false

namespace Engine

def tidy (E : Engine) : Engine :=
  { E with
    queue := E.queue.cleanUp E.now
    registry := E.registry.tidy E.now
    journal := E.journal.filter fun x => !x.2.isHousekeeping }

/-- The two engines are the same but for what housekeeping takes away. -/
def Resembles (E E' : Engine) : Prop := E.tidy = E'.tidy

variable {E E' E'' : Engine}

namespace Resembles

theorem refl (E : Engine) : E.Resembles E := rfl

theorem symm (h : E.Resembles E') : E'.Resembles E := Eq.symm h

theorem trans (h : E.Resembles E') (h' : E'.Resembles E'') : E.Resembles E'' := Eq.trans h h'

/-! ## What can be seen -/

/-- What is seen of tidy engines is seen of both. -/
theorem see {β : Type} (h : E.Resembles E') (f : Engine → β) (hf : ∀ E, f E.tidy = f E) :
    f E' = f E := by
  rw [← hf E', ← hf E]
  exact congrArg f h.symm

theorem now (h : E.Resembles E') : E'.now = E.now := h.see Engine.now fun _ => rfl
theorem runs (h : E.Resembles E') : E'.runs = E.runs := h.see Engine.runs fun _ => rfl
theorem runAt (h : E.Resembles E') (r : Nat) : E'.runAt r = E.runAt r :=
  h.see (·.runAt r) fun _ => rfl
theorem evaluationAt (h : E.Resembles E') (e : Nat) : E'.evaluationAt e = E.evaluationAt e :=
  h.see (·.evaluationAt e) fun _ => rfl

/-- Housekeeping leaves what turns go by alone. -/
theorem face (h : E.Resembles E') : E.face = E'.face := by
  refine (h.see Engine.face fun E => ?_).symm
  unfold Engine.face tidy Registry.tidy
  simp only [List.map_map]
  rfl

theorem frame (h : E.Resembles E') : E.frame = E'.frame := by
  have hs : ∀ f : Engine → Engine → Engine, (∀ E G, f E.tidy G = f E G) →
      f E E.face = f E' E'.face := fun f hf => by
    rw [h.face, ← hf E, ← hf E', show E.tidy = E'.tidy from h]
  exact hs (fun E G => { G with
    queue := { window := 0, woken := E.queue.woken }
    registry := { G.registry with observed := E.registry.observed, host := E.registry.host }
    crews := E.crews, running := E.running, stops := E.stops, guards := E.guards
    writes := E.writes, ready := E.ready, tasks := E.tasks, finished := E.finished })
    fun _ _ => rfl

theorem queue (h : E.Resembles E') : E.queue.cleanUp E.now = E'.queue.cleanUp E.now := by
  have hq : E.queue.cleanUp E.now = E'.queue.cleanUp E'.now := congrArg Engine.queue h
  rwa [h.now] at hq

theorem registry (h : E.Resembles E') : Registry.Resembles E.now E.registry E'.registry := by
  have hr : E.registry.tidy E.now = E'.registry.tidy E'.now := congrArg Engine.registry h
  rwa [h.now] at hr

theorem ruleOf (h : E.Resembles E') (r : Nat) :
    (E.ruleOf r).tidy E.now = (E'.ruleOf r).tidy E.now := by
  unfold Engine.ruleOf
  rw [h.runAt, ← Registry.tidy_ruleAt, ← Registry.tidy_ruleAt,
    show E.registry.tidy E.now = E'.registry.tidy E.now from h.registry]

/-- Scripts are given the same facts. -/
theorem validFacts (h : E.Resembles E') (r : Nat) :
    (E'.ruleOf r).facts.validFacts E.now = (E.ruleOf r).facts.validFacts E.now := by
  have hone : ∀ i : Instance,
      (i.tidy E.now).facts.validFacts E.now = i.facts.validFacts E.now :=
    fun i => i.facts.validFacts_sweep E.now
  rw [← hone (E'.ruleOf r), ← h.ruleOf, hone]

/-! ## Changing one thing -/

/-- What touches nothing that housekeeping takes away does the same to both. -/
theorem map {f : Engine → Engine} (h : E.Resembles E') (hf : ∀ E, (f E).tidy = f E.tidy) :
    (f E).Resembles (f E') := by
  unfold Resembles
  rw [hf, hf, show E.tidy = E'.tidy from h]

theorem wake (h : E.Resembles E') (j : Job) : (E.wake j).Resembles (E'.wake j) := by
  refine h.map (f := (·.wake j)) fun E => ?_
  unfold Engine.wake
  have hr : E.tidy.ready = E.ready := rfl
  rw [hr]
  split <;> rfl

theorem say (h : E.Resembles E') (e : Entry) : (E.say e).Resembles (E'.say e) := by
  have hj : (E.journal ++ [(E.now, e)]).filter (fun x => !x.2.isHousekeeping)
      = (E'.journal ++ [(E.now, e)]).filter (fun x => !x.2.isHousekeeping) := by
    rw [List.filter_append, List.filter_append]
    exact congrArg (· ++ _) (congrArg Engine.journal h)
  show ({ E.tidy with
      journal := (E.journal ++ [(E.now, e)]).filter fun x => !x.2.isHousekeeping } : Engine)
    = { E'.tidy with
      journal := (E'.journal ++ [(E'.now, e)]).filter fun x => !x.2.isHousekeeping }
  rw [h.now, hj, show E.tidy = E'.tidy from h]

theorem setQueue {q q' : DispatchQueue Trigger (Nat × Nat)} (h : E.Resembles E')
    (hq : q.cleanUp E.now = q'.cleanUp E.now) :
    Resembles { E with queue := q } { E' with queue := q' } := by
  show ({ E.tidy with queue := q.cleanUp E.now } : Engine)
    = { E'.tidy with queue := q'.cleanUp E'.now }
  rw [h.now, hq, show E.tidy = E'.tidy from h]

theorem lines {α : Type} {x x' : DispatchQueue Trigger (Nat × Nat) × α} (h : E.Resembles E')
    (hx : (x.1.cleanUp E.now, x.2) = (x'.1.cleanUp E.now, x'.2)) :
    Agrees Resembles (E.lines x) (E'.lines x') :=
  ⟨(Prod.mk.inj hx).2.symm, h.setQueue (Prod.mk.inj hx).1⟩

theorem setRegistry {R R' : Registry} (h : E.Resembles E') (hR : Registry.Resembles E.now R R') :
    Resembles { E with registry := R } { E' with registry := R' } := by
  show ({ E.tidy with registry := R.tidy E.now } : Engine)
    = { E'.tidy with registry := R'.tidy E'.now }
  rw [h.now, show R.tidy E.now = R'.tidy E.now from hR, show E.tidy = E'.tidy from h]

/-! ### Changing an instance -/

theorem modifyInstance (h : E.Resembles E') (n : Nat) {f f' : Instance → Instance}
    (hf : ∀ i i', i.tidy E.now = i'.tidy E.now → (f i).tidy E.now = (f' i').tidy E.now) :
    (E.modifyInstance n f).Resembles (E'.modifyInstance n f') :=
  h.setRegistry (h.registry.modify n hf)

/-- What does not touch facts is done to both instances. -/
theorem modifySame (h : E.Resembles E') (n : Nat) {f : Instance → Instance}
    (hf : ∀ i, (f i).tidy E.now = f (i.tidy E.now)) :
    (E.modifyInstance n f).Resembles (E'.modifyInstance n f) :=
  h.modifyInstance n fun i i' hi => by rw [hf, hf, hi]

theorem modifyRule (h : E.Resembles E') (n : Nat) {f : Rule → Rule}
    (hf : ∀ t i, (f i).sweep t = f (i.sweep t)) :
    (E.modifyInstance n (.mapRule f)).Resembles (E'.modifyInstance n (.mapRule f)) := by
  refine h.modifySame _ fun i => ?_
  show Instance.mk ((f i.toRule).sweep E.now) i.slot = Instance.mk (f (i.toRule.sweep E.now)) i.slot
  rw [hf]

theorem recordFact (h : E.Resembles E') (n : Nat) (node name : String) (value : Json) :
    (E.modifyInstance n (.mapRule (·.recordFact E.now node name value))).Resembles
      (E'.modifyInstance n (.mapRule (·.recordFact E.now node name value))) := by
  refine h.modifyInstance _ fun i i' hi => ?_
  have hf : i.facts.sweep E.now = i'.facts.sweep E.now := congrArg (·.facts) hi
  have hv : i.definition = i'.definition := congrArg (·.definition) hi
  have ht : i.triggers = i'.triggers := congrArg (·.triggers) hi
  show ({ i.tidy E.now with
      facts := (i.facts.record E.now node ⟨name, value⟩ i.definition.validity).sweep E.now
      dirty := true, triggers := i.triggers + 1 } : Instance) = { i'.tidy E.now with
      facts := (i'.facts.record E.now node ⟨name, value⟩ i'.definition.validity).sweep E.now
      dirty := true, triggers := i'.triggers + 1 }
  rw [← hv, FactMemory.record_eq hf, hi, ht]

/-! ### Answers -/

theorem reply (h : E.Resembles E') (e : Nat) (a : Script.Reply) :
    (E.reply e a).Resembles (E'.reply e a) := by
  unfold Engine.reply
  rw [h.evaluationAt]
  split
  · next next _ =>
    exact h.map (f := fun E => (E.setEvaluation e (.running (next a))).goOn (.script e)) fun _ => rfl
  · exact h

theorem answer (h : E.Resembles E') (r : Nat) (o : Outcome) :
    (E.answer r o).Resembles (E'.answer r o) := by
  have ha := h.map (f := (·.modifyRun r fun x => { x with answered := true })) fun _ => rfl
  unfold Engine.answer
  rw [h.runAt]
  split
  · exact h
  · dsimp only
    rw [ha.runAt]
    split
    · exact ha.map (f := (·.finishTask _ _)) fun _ => rfl
    · exact ha.map (f := (·.goOn _)) fun _ => rfl
    · exact ha.map (f := fun E => (E.setWorker _ _ .looking).goOn _) fun _ => rfl
    · exact ha.reply _ _

/-! ## Time -/

theorem setNow (h : E.Resembles E') {t : Nat} (ht : E.now ≤ t) :
    Resembles { E with now := t } { E' with now := t } := by
  show ({ E.tidy with
      now := t, queue := E.queue.cleanUp t, registry := E.registry.tidy t } : Engine)
    = { E'.tidy with now := t, queue := E'.queue.cleanUp t, registry := E'.registry.tidy t }
  have hR : E.registry.tidy t = E'.registry.tidy t := h.registry.later ht
  rw [DispatchQueue.cleanUp_later h.queue ht, hR, show E.tidy = E'.tidy from h]

end Resembles

/-! ## Housekeeping -/

/-- Sweeping takes away only what is not there when tidy. -/
theorem sweep_resembles (E : Engine) : E.sweep.1.Resembles E :=
  (Resembles.refl E).setRegistry (E.registry.sweep_resembles E.now)

/-- **An engine that keeps house resembles itself as it was.** -/
theorem keepHouse_resembles (E : Engine) : E.keepHouse.Resembles E := by
  have hq : Resembles { E.sweep.1 with queue := E.queue.cleanUp E.now } E.sweep.1 :=
    (Resembles.refl E.sweep.1).setQueue (DispatchQueue.cleanUp_cleanUp E.queue (Nat.le_refl _))
  have hs := hq.trans E.sweep_resembles
  unfold keepHouse
  dsimp only
  split
  · refine Eq.trans ?_ hs
    show ({ Engine.tidy { E.sweep.1 with queue := E.queue.cleanUp E.now } with
      journal := List.filter _ (_ ++ [_]) } : Engine) = _
    rw [List.filter_append]
    exact congrArg (fun j => { Engine.tidy { E.sweep.1 with queue := E.queue.cleanUp E.now } with
      journal := j }) (List.append_nil _)
  · exact hs

end Engine

end ReactiveRules
