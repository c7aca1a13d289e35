import ReactiveRules.Engine.Schedule
import ReactiveRules.Proofs.Likeness.Course

/-!
# `Proofs/Likeness/Scripts.lean` — rules and scripts of engines that go the same way

Two engines that are related answer alike whoever registers, removes or pauses a rule, and stay
related. **So they do after a step of a script** (`Like.performScript`). An order to dispatch is the
one thing a script can do that goes by the queue; what becomes of it has to be known apart.
-/

set_option autoImplicit false

namespace ReactiveRules

namespace Engine

namespace Like

variable {Q : Likeness} {E E' : Engine}

/-- What depends on something that both have in common, given that. -/
theorem given {α : Type} (h : Like Q E E') (a : Engine → α) (ha : ∀ E, a E.face = a E)
    {f : α → Engine → Engine} (hf : ∀ x, Like Q (f x E) (f x E')) :
    Like Q (f (a E) E) (f (a E') E') := by
  rw [h.see a ha]
  exact hf _

/-! ## Rules -/

theorem pendingOf (h : Like Q E E') (n : Nat) : E'.pendingOf n = E.pendingOf n := by
  have hb : ∀ E : Engine,
      E.pendingOf n = ((E.registry.instances[n]?).map (·.pending)).join := by
    intro E
    unfold Engine.pendingOf
    cases E.registry.instances[n]? <;> rfl
  rw [hb, hb, h.nth n (·.pending) fun _ => rfl]

theorem listening (h : Like Q E E') (n : Nat) : E'.listening n = E.listening n := by
  unfold Engine.listening
  rw [h.length]
  exact List.filter_congr fun r _ => h.run r (heedsRetirement · n) fun _ => rfl

theorem signalRetirement (h : Like Q E E') (n : Nat) (p : Option (Nat × Nat)) :
    Like Q (E.signalRetirement n p) (E'.signalRetirement n p) := by
  have hw := foldl (fun r h => h.wake (.run r)) (E.listening n) h
  unfold Engine.signalRetirement
  rw [h.listening]
  cases p with
  | none => exact hw
  | some p => exact hw.cancelDeferral _

theorem define (h : Like Q E E') (d : Definition) :
    Agrees (Like Q) (E.define d) (E'.define d) := by
  have hR := Q.register h d
  unfold Engine.define
  generalize E.registry.register d = x at hR ⊢
  generalize E'.registry.register d = x' at hR ⊢
  obtain ⟨R, a⟩ := x
  obtain ⟨R', a'⟩ := x'
  obtain ⟨ha, hE : Like Q { E with registry := R } { E' with registry := R' }⟩ := hR
  obtain rfl : a' = a := ha
  cases a' with
  | error e => exact ⟨rfl, h⟩
  | ok placed =>
    dsimp only
    cases placed.replaced with
    | none => exact ⟨rfl, hE.notice _⟩
    | some old =>
      dsimp only
      rw [h.pendingOf]
      exact ⟨rfl, (hE.signalRetirement old _).notice _⟩

theorem deregister (h : Like Q E E') (id : String) :
    Agrees (Like Q) (E.deregister id) (E'.deregister id) := by
  have hR := Q.deregister h id
  unfold Engine.deregister
  generalize E.registry.deregister id = x at hR ⊢
  generalize E'.registry.deregister id = x' at hR ⊢
  obtain ⟨R, a⟩ := x
  obtain ⟨R', a'⟩ := x'
  obtain ⟨ha, hE : Like Q { E with registry := R } { E' with registry := R' }⟩ := hR
  obtain rfl : a' = a := ha
  cases a' with
  | error e => exact ⟨rfl, h⟩
  | ok removed =>
    dsimp only
    rw [h.pendingOf]
    exact ⟨rfl, (hE.signalRetirement _ _).notice _⟩

theorem setPaused (h : Like Q E E') (id : String) (paused : Bool) :
    Agrees (Like Q) (E.setPaused id paused) (E'.setPaused id paused) := by
  unfold Engine.setPaused
  rw [h.number?]
  split
  · exact ⟨rfl, h⟩
  · next n _ =>
    have hm : Like Q _ _ := Q.modifyRule h n (f := fun r => { r with paused }) fun _ _ => rfl
    exact ⟨rfl, hm.notice _⟩

/-- Instances in force differ in facts alone. -/
theorem find (h : Like Q E E') (id : String) :
    E.registry.find? id = none ∧ E'.registry.find? id = none ∨
      ∃ i i', E.registry.find? id = some i ∧ E'.registry.find? id = some i' ∧
        i'.face = i.face := by
  have hf : (E'.registry.find? id).map Instance.face = (E.registry.find? id).map Instance.face := by
    unfold Registry.find?
    rw [h.number?]
    cases E.registry.number? id with
    | none => rfl
    | some n => exact h.nth n Instance.face fun _ => rfl
  cases hi : E.registry.find? id with
  | none =>
    rw [hi] at hf
    exact .inl ⟨rfl, Option.map_eq_none_iff.mp hf⟩
  | some i =>
    rw [hi] at hf
    obtain ⟨i', hi', he⟩ := Option.map_eq_some_iff.mp hf
    exact .inr ⟨i, i', rfl, hi', he⟩

theorem stats (h : Like Q E E') (id : String) : E'.stats id = E.stats id := by
  unfold Engine.stats
  rcases h.find id with ⟨hi, hi'⟩ | ⟨i, i', hi, hi', he⟩ <;> rw [hi, hi']
  have hs := congrArg (fun i : Instance => (i.triggers, i.executions, i.failures)) he
  exact congrArg Except.ok hs

/-! ## Scripts -/

section Scripts

open Script (Process Reply Fault Value)

theorem resumeScript (h : Like Q E E') (e : Nat) (p : Process (Except Fault Value)) :
    Like Q (E.resumeScript e p) (E'.resumeScript e p) := (h.setEvaluation e _).goOn _

theorem answerScript (h : Like Q E E') (e : Nat) (cancels : Bool) (a : Except String Json)
    (next : Reply → Process (Except Fault Value)) :
    Like Q (E.answerScript e cancels a next) (E'.answerScript e cancels a next) :=
  (h.modifyEvaluation e _).resumeScript e _

theorem pass (h : Like Q E E') (e : Nat) (command : String)
    (next : Reply → Process (Except Fault Value)) :
    Like Q (E.pass e command next) (E'.pass e command next) := by
  unfold Engine.pass
  dsimp only
  rw [h.evaluationAt, h.id]
  exact (h.say _).resumeScript e _

theorem reachGate (h : Like Q E E') (e : Nat) (command gate : String)
    (next : Reply → Process (Except Fault Value)) :
    Like Q (E.reachGate e command gate next) (E'.reachGate e command gate next) := by
  have hp := h.map (f := fun E => { E with permits := E.permits.erase gate }) fun _ => rfl
  unfold Engine.reachGate
  rw [h.permits] at hp ⊢
  split
  · exact hp.pass e command next
  · exact h.setEvaluation e _

theorem openGate (h : Like Q E E') (gate : String) :
    Like Q (E.openGate gate) (E'.openGate gate) := by
  have hi : E'.evaluations.findIdx? (Evaluation.isAt gate)
      = E.evaluations.findIdx? (Evaluation.isAt gate) := by rw [h.evaluations]
  unfold Engine.openGate
  rw [hi]
  split
  · exact h.map (f := fun E => { E with permits := E.permits ++ [gate] }) fun _ => rfl
  · rw [h.evaluationAt]
    split
    · exact h.pass _ _ _
    · exact h

theorem fire (h : Like Q E E') (e : Nat) (t : Trigger)
    (next : Reply → Process (Except Fault Value)) :
    Like Q (E.fire e t next) (E'.fire e t next) := by
  unfold Engine.fire
  rw [h.number?]
  split
  · exact h.resumeScript e _
  · next n _ =>
    have hs := h.setEvaluation e (.awaiting next)
    exact hs.given (fun E => E.runs.length) (fun _ => List.length_map _)
      (f := fun r E => (E.spawn n t .dropIfBusy (.script e)).1.goOn (.run r))
      fun r => (hs.spawn n t _ _).goOn _

theorem concludeScript (h : Like Q E E') (e : Nat)
    (result : Except String (Except Fault Value)) :
    Like Q (E.concludeScript e result) (E'.concludeScript e result) := by
  have he := h.setEvaluation e .ended
  unfold Engine.concludeScript
  dsimp only
  rw [h.evaluationAt, he.stage]
  split
  · split
    · cases result with
      | error m => exact he.breakOff _ m
      | ok v => exact he.decideOn _ _
    · exact he
  · split
    · cases result with
      | error m => exact he.conclude _ _
      | ok v => exact he.conclude _ _
    · exact he
  · exact he

/-- An order is obeyed alike, given that a dispatch is. -/
theorem obey (h : Like Q E E') (node : String) {o : Order}
    (hd : ∀ rule name value, o = .dispatch rule name value → Agrees (Like Q)
      (E.dispatch ⟨rule, node, name, value, .attribute⟩)
      (E'.dispatch ⟨rule, node, name, value, .attribute⟩)) :
    Agrees (Like Q) (E.obey node o) (E'.obey node o) := by
  cases o with
  | deregister rule => exact (h.deregister rule).map fun r => (false, orderReply _ r)
  | pause rule => exact (h.setPaused rule true).map fun r => (false, orderReply _ r)
  | resume rule => exact (h.setPaused rule false).map fun r => (false, orderReply _ r)
  | register rule condition action =>
    unfold Engine.obey Engine.register
    rw [h.settings]
    exact (h.define _).map fun r => (false, orderReply _ r)
  | dispatch rule name value =>
    exact (hd rule name value rfl).map fun r => (false, orderReply _ r)
  | cancel => exact ⟨rfl, h⟩
  | unknown word => exact ⟨rfl, h⟩

end Scripts

end Like

/-- A script is about to give the order to dispatch `t`. -/
def Dispatching (E : Engine) (e : Nat) (t : Trigger) : Prop :=
  ∃ command args next commands calls rule name value,
    (E.evaluationAt e).state = .running (.invoke command args next) ∧
    (E.evaluationAt e).cancelled = false ∧
    (CommandTable.numberIn (E.evaluationAt e).commands command).bind E.commands.call?
      = some (commands, .order, calls) ∧
    Order.ofArguments args = .dispatch rule name value ∧
    t = ⟨rule, (E.runAt (E.evaluationAt e).run).trigger.node, name, value, .attribute⟩

/-- What a script is about to dispatch is answered alike, once the two have noted that a command was
called. -/
def Orders (Q : Likeness) (E E' : Engine) (e : Nat) : Prop :=
  ∀ t, E.Dispatching e t → ∀ (commands : CommandTable Device) (x : Entry),
    Like Q ({ E with commands }.say x) ({ E' with commands }.say x) →
      Agrees (Like Q) (({ E with commands }.say x).dispatch t) (({ E' with commands }.say x).dispatch t)

namespace Like

variable {Q : Likeness} {E E' : Engine}

open Script (Process Reply Fault Value)

theorem invoke (h : Like Q E E') (e : Nat) {command : String} {args : List Json}
    {next : Reply → Process (Except Fault Value)}
    (hs : (E.evaluationAt e).state = .running (.invoke command args next))
    (hlive : (E.evaluationAt e).cancelled = false) (hd : Orders Q E E' e) :
    Like Q (E.invoke e command args next) (E'.invoke e command args next) := by
  unfold Engine.invoke
  dsimp only
  rw [h.commands, h.evaluationAt, h.id, h.trigger]
  split
  · exact h.resumeScript e _
  · next commands device calls hc =>
    have hsay := (h.map (f := fun E => { E with commands }) fun _ => rfl).say (.called command
      (E.ruleOf (E.evaluationAt e).run).id (E.runAt (E.evaluationAt e).run).trigger.node args)
    split
    · split
      · exact hsay.answerScript e _ _ next
      · exact hsay.concludeScript e _
    · exact hsay.reachGate e command _ next
    · exact hsay.fire e _ next
    · have ho := hsay.obey (E.runAt (E.evaluationAt e).run).trigger.node
        (o := Order.ofArguments args) fun rule name value ho =>
          hd _ ⟨command, args, next, commands, calls, rule, name, value, hs, hlive, hc, ho, rfl⟩ _ _
            hsay
      obtain ⟨X, X', a, hx, hx', hX⟩ := ho.pair
      rw [hx, hx']
      exact hX.answerScript e _ _ next

/-- **A step of a script does the same to both**, given that a dispatch does. -/
theorem performScript (h : Like Q E E') (e : Nat) (hd : Orders Q E E' e) :
    Like Q (E.performScript e) (E'.performScript e) := by
  unfold Engine.performScript
  dsimp only
  rw [h.evaluationAt]
  split
  · exact h.concludeScript e _
  · exact h.concludeScript e _
  · rw [h.id]
    exact (h.say _).resumeScript e _
  · next hs =>
    split
    · exact h.resumeScript e _
    · next hlive => exact h.invoke e hs (Bool.eq_false_iff.mpr hlive) hd
  · exact h

end Like

end Engine

end ReactiveRules
