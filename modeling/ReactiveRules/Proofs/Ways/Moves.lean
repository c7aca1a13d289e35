import ReactiveRules.Proofs.Engine.Labour
import ReactiveRules.Proofs.Ways.Clear
import ReactiveRules.Proofs.Ways.Errands

/-!
# `Proofs/Ways/Moves.lean` — engines that stay abreast

Two engines that are abreast can be made to do different things only where the errand's own jobs take
their turns. Any other move does the same to both, if nobody notifies the instance by it: a script
that wants to dispatch is refused by both queues, and the errand's run finds the slot open in both.
**So they stay abreast under any plans that differ in the errand's own turns alone**
(`Alongside.follow`), however these come to lie between the others.
-/

set_option autoImplicit false

namespace ReactiveRules

namespace Engine

variable {p : Errand} {E E' F : Engine} {t : Trigger} {e : Nat}

/-! ## Dispatches that are refused -/

theorem queue_dispatch {X : Engine} (hr : X.registry = E.registry) (hn : X.now = E.now)
    (hq : X.queue = E.queue) : (X.dispatch t).1.queue = (E.dispatch t).1.queue := by
  have hf : X.registry.find? t.rule = E.registry.find? t.rule := by rw [hr]
  have ho : ∀ priority, X.queue.offer X.now t priority = E.queue.offer E.now t priority := by
    intro priority
    rw [hn, hq]
  unfold dispatch
  rw [hf]
  cases E.registry.find? t.rule with
  | none => exact hq
  | some i =>
    dsimp only
    rw [ho]
    cases E.queue.offer E.now t i.definition.priority.toInt with
    | mk q b =>
      cases b with
      | false => exact hq
      | true =>
        exact (aside_wakeWorkers { X with queue := q }).queue.trans
          (aside_wakeWorkers { E with queue := q }).queue.symm

/-- What becomes of the queue in a step of a script that dispatches. -/
theorem Dispatching.queue (h : E.Dispatching e t) :
    (E.performScript e).queue = (E.dispatch t).1.queue := by
  obtain ⟨command, args, next, commands, calls, rule, name, value, hs, hlive, hc, ho, rfl⟩ := h
  unfold performScript invoke
  dsimp only
  rw [hs]
  dsimp only
  rw [hlive, hc]
  simp only [Bool.false_eq_true, if_false]
  rw [ho]
  exact queue_dispatch rfl rfl rfl

/-- A dispatch that is accepted is queued. -/
theorem not_accepted (h : (E.dispatch t).1.queue.nextOrder = E.queue.nextOrder) :
    (E.dispatch t).2 ≠ .ok true := by
  rcases E.dispatch_cases t with ⟨x, -, -, hx⟩ | ⟨hne, -⟩
  · rw [hx.queue] at h
    unfold DispatchQueue.accept DispatchQueue.notify at h
    dsimp only at h
    split at h <;> exact absurd h (Nat.succ_ne_self _)
  · exact hne

/-- A dispatch that is refused says so, and does nothing else. -/
theorem dispatch_refused (h : (E.dispatch t).2 ≠ .ok true) : E.dispatch t =
    match E.registry.find? t.rule with
    | none => (E, .error (.unknownRule t.rule))
    | some i => ((E.notice (.offerSuppressed i.definition.priority.toInt)).notice
        (.dispatchSuppressed t.rule t.node), .ok false) := by
  unfold dispatch at h ⊢
  cases hi : E.registry.find? t.rule with
  | none => rfl
  | some i =>
    rw [hi] at h
    dsimp only at h ⊢
    cases ho : E.queue.offer E.now t i.definition.priority.toInt with
    | mk q b =>
      cases b with
      | false => rfl
      | true =>
        rw [ho] at h
        exact absurd rfl h

theorem Dispatching.congr (h : Abreast p E E') (hd : E.Dispatching e t) : E'.Dispatching e t := by
  have hl : Like (abreast p) E E' := h
  obtain ⟨command, args, next, commands, calls, rule, name, value, hs, hlive, hc, ho, rfl⟩ := hd
  refine ⟨command, args, next, commands, calls, rule, name, value, ?_, ?_, ?_, ho, ?_⟩
  · rw [hl.evaluationAt]
    exact hs
  · rw [hl.evaluationAt]
    exact hlive
  · rw [hl.evaluationAt, hl.commands]
    exact hc
  · rw [hl.evaluationAt, hl.trigger]

namespace Abreast

/-- Where nothing is queued, a script that dispatches hears the same in both. -/
theorem orders (h : Abreast p E E') (hq : (E.performScript e).queue.nextOrder = E.queue.nextOrder)
    (hq' : (E'.performScript e).queue.nextOrder = E'.queue.nextOrder) :
    Orders (abreast p) E E' e := by
  intro t hd commands x hX
  have hrefused : ∀ E : Engine, E.Dispatching e t →
      (E.performScript e).queue.nextOrder = E.queue.nextOrder →
      (({ E with commands }.say x).dispatch t).2 ≠ .ok true := by
    intro E hd hq
    have hnoted : (({ E with commands }.say x).dispatch t).1.queue = (E.dispatch t).1.queue :=
      queue_dispatch (by rfl) (by rfl) (by rfl)
    refine not_accepted ?_
    rw [hnoted, ← hd.queue]
    exact hq
  have hi : ({ E' with commands }.say x).registry.find? t.rule
      = ({ E with commands }.say x).registry.find? t.rule :=
    h.see (·.registry.find? t.rule) fun _ => rfl
  rw [dispatch_refused (hrefused E hd hq), dispatch_refused (hrefused E' (hd.congr h) hq'), hi]
  cases ({ E with commands }.say x).registry.find? t.rule with
  | none => exact ⟨rfl, hX⟩
  | some i => exact ⟨rfl, (hX.notice _).notice _⟩

/-! ## Moves -/

/-- **A turn of any job but the errand's own keeps the two abreast**, if nothing is queued
by it, and the errand's run finds the slot open. -/
theorem turn (h : Abreast p E E') {j : Job} (hj : p.owns j = false) (second : Bool)
    (hr : j = .run p.run → (E.runAt p.run).isComing → (E.ruleOf p.run).slot.isOpen = true)
    (hq : (E.turn j second).queue.nextOrder = E.queue.nextOrder)
    (hq' : (E'.turn j second).queue.nextOrder = E'.queue.nextOrder) :
    Abreast p (E.turn j second) (E'.turn j second) := by
  refine Accord.turn (A := attuned p) h hj second (fun r hrun hcoming => ?_) fun e he hready => ?_
  · by_cases hpr : p.run = r
    · subst hpr
      exact .inr (.inr (hr hrun hcoming))
    · exact .inl (congrArg Run.admission (h.runAt_ne hpr))
  · subst he
    unfold Engine.turn at hq hq'
    rw [if_pos (List.contains_iff_mem.mpr hready)] at hq
    rw [if_pos (List.contains_iff_mem.mpr ((h.mem_ready hj).mpr hready))] at hq'
    exact (h.called _).orders hq hq'

theorem strike (h : Abreast p E E') {u : Nat} (hu : E.now ≤ u) :
    Abreast p (E.strike u) (E'.strike u) := Accord.strike (A := attuned p) h hu

theorem now (h : Abreast p E E') : E'.now = E.now := h.see Engine.now fun _ => rfl

/-- **A request about rules keeps the two abreast.** -/
theorem manage (h : Abreast p E E') {q : Request} (hq : q.isManaging = true) :
    Abreast p (E.serve q) (E'.serve q) := by
  cases q with
  | define d => exact (h.like.define d).state
  | deregister id => exact (h.like.deregister id).state
  | setPaused id paused => exact (h.like.setPaused id paused).state
  | _ => cases hq

end Abreast

/-- Is it a turn of the errand's own? -/
def Move.isOf (p : Errand) : Move → Bool
  | .turn j _ => p.owns j
  | _ => false

/-! ## Plans -/

/-- Nobody notifies the instance `n` by the moves. -/
def Peaceful (n : Nat) : Engine → List Move → Prop
  | _, [] => True
  | E, m :: ms => E.LetsBe n m ∧ Peaceful n (E.moved true m) ms

instance decidablePeaceful (n : Nat) : ∀ (E : Engine) (ms : List Move), Decidable (Peaceful n E ms)
  | _, [] => isTrue trivial
  | E, m :: ms =>
    have := decidablePeaceful n (E.moved true m) ms
    inferInstanceAs (Decidable (E.LetsBe n m ∧ Peaceful n (E.moved true m) ms))

/-- The two engines are abreast, and the way of the errand's run to the instance `n` is clear. -/
structure Alongside (p : Errand) (n : Nat) (E E' : Engine) : Prop where
  abreast : Abreast p E E'
  left : E.Reachable
  right : E'.Reachable
  rule : (E.runAt p.run).rule = n
  clear : E.Clear p.run

/-- What a way is clear for is told by the outline. -/
theorem Abreast.clear (h : Abreast p E E') (hc : E.Clear p.run) : E'.Clear p.run := by
  have hrun : ∀ {α : Type} (f : Run → α), (∀ x : Run, f x.anonymous = f x) →
      f (E'.runAt p.run) = f (E.runAt p.run) := by
    intro α f hf
    have hx := h.runAt p.run
    rw [outline_runAt, outline_runAt, if_pos rfl, if_pos rfl] at hx
    rw [← hf, ← hx, hf]
  have hstage := hrun Run.stage fun _ => rfl
  have hrule := hrun Run.rule fun _ => rfl
  refine ⟨h.length ▸ hc.lt, fun harr => ?_, fun hcoming => ?_⟩
  · exact (h.mem_ready rfl).mpr (hc.ready (hstage ▸ harr))
  · rw [Run.isComing, hstage] at hcoming
    rw [h.ruleOf, hrule]
    refine (hc.slot hcoming).imp_right fun hu => ⟨?_, fun m hm hne hn => ?_⟩
    · have hg : E'.guards = E.guards :=
        h.beside.right.guards.trans h.beside.left.guards.symm
      rw [← hu.guards]
      show E'.guards.countP _ = E.guards.countP _
      rw [hg]
    · have hsame := h.runAt_ne (Ne.symm hne)
      rw [hsame] at hn
      have hstands := hu.others m (h.length ▸ hm) hne hn
      rw [StandsBy, hsame, h.now]
      exact hstands

namespace Alongside

variable {n : Nat} {m : Move}

theorem rule_right (h : Alongside p n E E') : (E'.runAt p.run).rule = n := by
  have hx := congrArg Run.rule (h.abreast.runAt p.run)
  rw [outline_runAt, outline_runAt, if_pos rfl, if_pos rfl] at hx
  exact hx.symm.trans h.rule

theorem symm (h : Alongside p n E E') : Alongside p n E' E :=
  ⟨h.abreast.symm, h.right, h.left, h.rule_right, h.abreast.clear h.clear⟩

/-- A move of the one by which the other stays abreast. -/
theorem step {F F' : Engine} (h : Alongside p n E E') (hm : E.LetsBe n m) (hF : F = E.moved true m)
    (ha : Abreast p F F') (hr : F'.Reachable) : Alongside p n F F' := by
  subst hF
  have hf := (hm.step.core h.left.valid).follows h.left.valid
  have hg : (E.moved true m).guards = E.guards :=
    ha.beside.left.guards.trans h.abreast.beside.left.guards.symm
  exact ⟨ha, h.left.step hm.step, hr, (hf.run _ h.clear.lt).rule.trans h.rule,
    h.clear.moved h.left (h.rule.symm ▸ hm) hg⟩

/-- A turn of the errand's own in one of the two. -/
theorem aside (h : Alongside p n E E') (hm : E.LetsBe n m) (hp : m.isOf p = true) :
    Alongside p n (E.moved true m) E' := by
  cases m with
  | turn j second =>
    have hq : p.crew < E.crews.length → E.queue.IsQuiet := fun hlt =>
      (h.abreast.beside.queue.resolve_left fun hx => absurd hx.1 (Nat.not_le.mpr hlt)).1
    exact h.step hm rfl (h.abreast.left (.turn h.abreast.beside.left hq hp second)) h.right
  | _ => cases hp

/-- A move of all others in both. -/
theorem moved (h : Alongside p n E E') (hm : E.LetsBe n m) (hm' : E'.LetsBe n m)
    (hp : m.isOf p = false) : Alongside p n (E.moved true m) (E'.moved true m) := by
  refine h.step hm rfl ?_ (h.right.step hm'.step)
  cases m with
  | turn j second =>
    exact h.abreast.turn hp second (fun _ hc => h.clear.isOpen h.left hc) hm.queue hm'.queue
  | strike ms =>
    show Abreast p (E.strikeWith true (E.now + ms)) (E'.strikeWith true (E'.now + ms))
    rw [strikeWith_true, strikeWith_true, h.abreast.now]
    exact h.abreast.strike (Nat.le_add_right _ _)
  | pass ms =>
    show Abreast p { E with now := E.now + ms } { E' with now := E'.now + ms }
    rw [h.abreast.now]
    exact (attuned p).setNow h.abreast (Nat.le_add_right _ _)
  | request q => exact h.abreast.manage hm.managing

end Alongside

end Engine

end ReactiveRules
