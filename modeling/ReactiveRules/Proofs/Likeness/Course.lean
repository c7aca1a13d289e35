import Mathlib.Data.List.Forall2
import ReactiveRules.Proofs.Engine.Core
import ReactiveRules.Proofs.Rule.Tidy

/-!
# `Proofs/Likeness/Course.lean` — engines that go the same way

Several questions about an engine are about two engines that differ in something of no account:
one has kept house and the other has not, a listener of one breaks off, a run of one has come by
another way. The answer is the same argument each time. `Likeness` is what has to be known of a
relation between engines: the two look the same to whoever takes a turn, and stay related when the
same single thing is changed in both. **From that, the two stay related whatever a turn of a run
does to both** (`Like.performRun`).
-/

set_option autoImplicit false

namespace ReactiveRules

/-! ## What turns go by -/

/-- What turns go by in a run. They do not look at its client, its listeners and its log. -/
def Run.face (x : Run) : Run :=
  { rule := x.rule, trigger := x.trigger, admission := .dropIfBusy, client := .task 0
    stage := x.stage, admitted := x.admitted, claimed := x.claimed, started := x.started }

/-- The run has yet to come to the slot of its rule. -/
def Run.isComing (x : Run) : Prop :=
  match x.stage with
  | .arriving | .deferred .. => True
  | _ => False

/-- An instance apart from its facts. -/
def Instance.face (i : Instance) : Instance := i.mapRule fun x => { x with facts := .empty }

namespace Engine

/-- What turns go by in an engine, apart from facts. -/
def face (E : Engine) : Engine :=
  { settings := E.settings, now := E.now, queue := { window := 0 }, history := E.history
    evaluator := E.evaluator, commands := E.commands, permits := E.permits, bus := E.bus
    evaluations := E.evaluations, runs := E.runs.map Run.face
    registry :=
      { instances := E.registry.instances.map Instance.face, registered := E.registry.registered } }

/-- The engine with what scripts work with taken over from another. -/
def adopt (E G : Engine) : Engine :=
  { E with
    evaluator := G.evaluator, commands := G.commands, permits := G.permits, bus := G.bus
    history := G.history, evaluations := G.evaluations }

/-- The outcome of an operation on the registry, as one of the engine. -/
def enrols {α : Type} (E : Engine) (x : Registry × α) : Engine × α :=
  ({ E with registry := x.1 }, x.2)

/-- The run turns to the listeners of the moment. -/
def opens (E : Engine) (r : Nat) : Engine :=
  (E.modifyRun r fun x => { x with started := E.now, audience := E.listeners }).mark r .began

theorem start_eq (E : Engine) (r : Nat) : E.start r =
    if (E.ruleOf r).inRefractory E.now then
      (E.notice (.droppedRefractory (E.ruleOf r).id)).finish r (.suppressed .refractory)
    else
      match (E.opens r).ask r (E.opens r).listeners with
      | (X, .error m) => X.breakOff r m
      | (X, .ok false) =>
        (X.notice (.vetoed (E.ruleOf r).id (X.runAt r).trigger.node)).finish r .vetoed
      | (X, .ok true) => X.judge r := rfl

theorem face_runAt (E : Engine) (r : Nat) : E.face.runAt r = (E.runAt r).face := by
  unfold runAt face
  simp only [List.getD_eq_getElem?_getD, List.getElem?_map]
  cases E.runs[r]? <;> rfl

theorem face_ruleOf (E : Engine) (r : Nat) : E.face.ruleOf r = (E.ruleOf r).face := by
  unfold ruleOf
  rw [face_runAt]
  unfold face
  simp only [List.getD_eq_getElem?_getD, List.getElem?_map]
  show (Option.map _ E.registry.instances[(E.runAt r).rule]?).getD default = _
  cases E.registry.instances[(E.runAt r).rule]? <;> rfl

end Engine

/-- A relation between engines that no turn of a run can break. -/
structure Likeness where
  rel : Engine → Engine → Prop
  /-- How the listeners of the one are related to those of the other. -/
  kin : Listener → Listener → Prop
  -- what is seen
  face : ∀ {E E' : Engine}, rel E E' → E.face = E'.face
  facts : ∀ {E E' : Engine}, rel E E' → ∀ r,
    (E'.ruleOf r).facts.validFacts E.now = (E.ruleOf r).facts.validFacts E.now
  listeners : ∀ {E E' : Engine}, rel E E' → List.Forall₂ kin E.listeners E'.listeners
  audience : ∀ {E E' : Engine}, rel E E' → ∀ r,
    List.Forall₂ kin (E.runAt r).audience (E'.runAt r).audience
  /-- Listeners that are related have the same manners. -/
  manners : ∀ {l l' : Listener}, kin l l' → l'.name = l.name ∧ l'.role = l.role ∧
    (∀ t, l'.forbids t = l.forbids t) ∧ l'.breaksOn .beforeEvaluate = l.breaksOn .beforeEvaluate
  -- what is changed
  adopt : ∀ {E E' : Engine}, rel E E' → ∀ G, rel (E.adopt G) (E'.adopt G)
  say : ∀ {E E' : Engine}, rel E E' → ∀ e, rel (E.say e) (E'.say e)
  wake : ∀ {E E' : Engine}, rel E E' → ∀ j, rel (E.wake j) (E'.wake j)
  goOn : ∀ {E E' : Engine}, rel E E' → ∀ j, rel (E.goOn j) (E'.goOn j)
  mark : ∀ {E E' : Engine}, rel E E' → ∀ r m, rel (E.mark r m) (E'.mark r m)
  setStage : ∀ {E E' : Engine}, rel E E' → ∀ r s, rel (E.setStage r s) (E'.setStage r s)
  setClaimed : ∀ {E E' : Engine}, rel E E' → ∀ r b,
    rel (E.modifyRun r fun x => { x with claimed := b })
      (E'.modifyRun r fun x => { x with claimed := b })
  setAdmitted : ∀ {E E' : Engine}, rel E E' → ∀ r,
    rel (E.modifyRun r fun x => { x with admitted := true })
      (E'.modifyRun r fun x => { x with admitted := true })
  spawn : ∀ {E E' : Engine}, rel E E' → ∀ n t a c, rel (E.spawn n t a c).1 (E'.spawn n t a c).1
  opens : ∀ {E E' : Engine}, rel E E' → ∀ r, rel (E.opens r) (E'.opens r)
  heard : ∀ {E E' : Engine} {l l' : Listener}, rel E E' → kin l l' → ∀ r s,
    rel (E.mark r (.heard l s)) (E'.mark r (.heard l' s))
  /-- It is of no account which of the two breaks off. -/
  breaks : ∀ {E E' : Engine} {l l' : Listener}, rel E E' → kin l l' → ∀ (s : RunSignal) rule, rel
    (if l.breaksOn s then E.notice (.listenerPanicked rule s.name) else E)
    (if l'.breaksOn s then E'.notice (.listenerPanicked rule s.name) else E')
  answer : ∀ {E E' : Engine}, rel E E' → ∀ r o, rel (E.answer r o) (E'.answer r o)
  /-- Both instances are changed in what has nothing to do with the age of facts. -/
  modifyRule : ∀ {E E' : Engine}, rel E E' → ∀ n {f : Rule → Rule},
    (∀ t i, (f i).sweep t = f (i.sweep t)) →
      rel (E.modifyInstance n (.mapRule f)) (E'.modifyInstance n (.mapRule f))
  recordFact : ∀ {E E' : Engine}, rel E E' → ∀ n node name value, rel
    (E.modifyInstance n (.mapRule (·.recordFact E.now node name value)))
    (E'.modifyInstance n (.mapRule (·.recordFact E.now node name value)))
  mapSlot : ∀ {E E' : Engine}, rel E E' → ∀ n (f : Slot Nat → Slot Nat),
    rel (E.modifyInstance n fun i => { i with slot := f i.slot })
      (E'.modifyInstance n fun i => { i with slot := f i.slot })
  register : ∀ {E E' : Engine}, rel E E' → ∀ d,
    Agrees rel (E.enrols (E.registry.register d)) (E'.enrols (E'.registry.register d))
  deregister : ∀ {E E' : Engine}, rel E E' → ∀ id,
    Agrees rel (E.enrols (E.registry.deregister id)) (E'.enrols (E'.registry.deregister id))

namespace Engine

/-- The two engines are related. -/
def Like (Q : Likeness) (E E' : Engine) : Prop := Q.rel E E'

/-- It makes no difference which of the two ways a run is admitted: it is the same way, or the run
finds the slot open or the instance retired. -/
def Indifferent (E E' : Engine) (r : Nat) : Prop :=
  (E'.runAt r).admission = (E.runAt r).admission ∨
    (E.ruleOf r).retired = true ∨ (E.ruleOf r).slot.isOpen = true

theorem Indifferent.modifyRuleOf {E E' : Engine} {r : Nat} {f : Rule → Rule}
    (h : Indifferent E E' r) (hf : ∀ i : Rule, (f i).retired = i.retired) :
    Indifferent (E.modifyRuleOf r f) (E'.modifyRuleOf r f) r := by
  have hr : ((E.modifyRuleOf r f).ruleOf r).retired = (E.ruleOf r).retired ∧
      ((E.modifyRuleOf r f).ruleOf r).slot = (E.ruleOf r).slot := by
    rcases Core.getD_modify_or E.registry.instances (E.runAt r).rule (.mapRule f) default
      (E.runAt r).rule with hi | ⟨-, hi⟩
    · exact ⟨congrArg (·.retired) hi, congrArg (·.slot) hi⟩
    · exact ⟨(congrArg (·.retired) hi).trans (hf _), congrArg (·.slot) hi⟩
  unfold Indifferent
  rw [hr.1, hr.2]
  exact h

theorem Indifferent.modifyRun {E E' : Engine} {r : Nat} {f : Run → Run} (h : Indifferent E E' r)
    (hf : ∀ x, (f x).rule = x.rule ∧ (f x).admission = x.admission) :
    Indifferent (E.modifyRun r f) (E'.modifyRun r f) r := by
  have hone : ∀ E : Engine, ((E.modifyRun r f).runAt r).rule = (E.runAt r).rule ∧
      ((E.modifyRun r f).runAt r).admission = (E.runAt r).admission := by
    intro E
    rcases Core.getD_modify_or E.runs r f default r with hx | ⟨-, hx⟩
    · exact ⟨congrArg Run.rule hx, congrArg Run.admission hx⟩
    · exact ⟨(congrArg Run.rule hx).trans (hf _).1, (congrArg Run.admission hx).trans (hf _).2⟩
  have hrule : (E.modifyRun r f).ruleOf r = E.ruleOf r := by
    unfold ruleOf
    rw [(hone E).1]
    rfl
  unfold Indifferent
  rw [(hone E).2, (hone E').2, hrule]
  exact h

namespace Like

variable {Q : Likeness} {E E' : Engine}

/-! ## What can be seen -/

/-- What is seen of faces is seen of both. -/
theorem see {β : Type} (h : Like Q E E') (f : Engine → β) (hf : ∀ E, f E.face = f E) :
    f E' = f E := by
  rw [← hf E', ← hf E]
  exact congrArg f (Q.face h).symm

theorem run {β : Type} (h : Like Q E E') (r : Nat) (f : Run → β) (hf : ∀ x, f x.face = f x) :
    f (E'.runAt r) = f (E.runAt r) := by
  rw [← hf (E'.runAt r), ← hf (E.runAt r), ← face_runAt, ← face_runAt,
    Q.face h]

theorem rule {β : Type} (h : Like Q E E') (r : Nat) (f : Instance → β)
    (hf : ∀ i, f i.face = f i) : f (E'.ruleOf r) = f (E.ruleOf r) := by
  rw [← hf (E'.ruleOf r), ← hf (E.ruleOf r), ← face_ruleOf, ← face_ruleOf,
    Q.face h]

/-- What is seen of an instance without facts is seen of both, in force or not. -/
theorem nth {β : Type} (h : Like Q E E') (n : Nat) (f : Instance → β)
    (hf : ∀ i, f i.face = f i) :
    (E'.registry.instances[n]?).map f = (E.registry.instances[n]?).map f := by
  refine h.see (fun E => (E.registry.instances[n]?).map f) fun E => ?_
  show ((E.registry.instances.map Instance.face)[n]?).map f = (E.registry.instances[n]?).map f
  rw [List.getElem?_map, Option.map_map]
  exact congrArg (Option.map · _) (funext hf)

theorem now (h : Like Q E E') : E'.now = E.now := h.see Engine.now fun _ => rfl
theorem settings (h : Like Q E E') : E'.settings = E.settings := h.see Engine.settings fun _ => rfl
theorem evaluations (h : Like Q E E') : E'.evaluations = E.evaluations :=
  h.see Engine.evaluations fun _ => rfl
theorem evaluationAt (h : Like Q E E') (e : Nat) : E'.evaluationAt e = E.evaluationAt e :=
  h.see (·.evaluationAt e) fun _ => rfl
theorem history (h : Like Q E E') : E'.history = E.history := h.see Engine.history fun _ => rfl
theorem evaluator (h : Like Q E E') : E'.evaluator = E.evaluator :=
  h.see Engine.evaluator fun _ => rfl
theorem commands (h : Like Q E E') : E'.commands = E.commands := h.see Engine.commands fun _ => rfl
theorem permits (h : Like Q E E') : E'.permits = E.permits := h.see Engine.permits fun _ => rfl
theorem bus (h : Like Q E E') : E'.bus = E.bus := h.see Engine.bus fun _ => rfl
theorem number? (h : Like Q E E') (id : String) :
    E'.registry.number? id = E.registry.number? id := h.see (·.registry.number? id) fun _ => rfl
theorem length (h : Like Q E E') : E'.runs.length = E.runs.length :=
  h.see (·.runs.length) fun _ => List.length_map _

theorem ruleNumber (h : Like Q E E') (r : Nat) : (E'.runAt r).rule = (E.runAt r).rule :=
  h.run r (·.rule) fun _ => rfl
theorem trigger (h : Like Q E E') (r : Nat) : (E'.runAt r).trigger = (E.runAt r).trigger :=
  h.run r (·.trigger) fun _ => rfl
theorem stage (h : Like Q E E') (r : Nat) : (E'.runAt r).stage = (E.runAt r).stage :=
  h.run r (·.stage) fun _ => rfl
theorem claimed (h : Like Q E E') (r : Nat) : (E'.runAt r).claimed = (E.runAt r).claimed :=
  h.run r (·.claimed) fun _ => rfl

theorem id (h : Like Q E E') (r : Nat) : (E'.ruleOf r).id = (E.ruleOf r).id :=
  h.rule r (·.id) fun _ => rfl
theorem definition (h : Like Q E E') (r : Nat) :
    (E'.ruleOf r).definition = (E.ruleOf r).definition := h.rule r (·.definition) fun _ => rfl
theorem slot (h : Like Q E E') (r : Nat) : (E'.ruleOf r).slot = (E.ruleOf r).slot :=
  h.rule r (·.slot) fun _ => rfl
theorem paused (h : Like Q E E') (r : Nat) : (E'.ruleOf r).paused = (E.ruleOf r).paused :=
  h.rule r (·.paused) fun _ => rfl
theorem retired (h : Like Q E E') (r : Nat) : (E'.ruleOf r).retired = (E.ruleOf r).retired :=
  h.rule r (·.retired) fun _ => rfl
theorem pending (h : Like Q E E') (r : Nat) : (E'.ruleOf r).pending = (E.ruleOf r).pending :=
  h.rule r (·.pending) fun _ => rfl
theorem generation (h : Like Q E E') (r : Nat) :
    (E'.ruleOf r).generation = (E.ruleOf r).generation := h.rule r (·.generation) fun _ => rfl
theorem inRefractory (h : Like Q E E') (r t : Nat) :
    (E'.ruleOf r).inRefractory t = (E.ruleOf r).inRefractory t :=
  h.rule r (·.inRefractory t) fun _ => rfl

theorem age (h : Like Q E E') (r : Nat) : E'.age r = E.age r := by
  unfold Engine.age
  rw [h.now, h.run r (·.started) fun _ => rfl]

/-- Scripts are given the same. -/
theorem context (h : Like Q E E') (r : Nat) : E'.context r = E.context r := by
  unfold Engine.context
  rw [h.trigger, h.id, h.now, Q.facts h, h.commands]

/-! ## Changing one thing -/

theorem foldl {α : Type} {f f' : Engine → α → Engine}
    (hf : ∀ {E E' : Engine} (a : α), Like Q E E' → Like Q (f E a) (f' E' a)) :
    ∀ (xs : List α) {E E' : Engine}, Like Q E E' → Like Q (xs.foldl f E) (xs.foldl f' E') := by
  intro xs
  induction xs with
  | nil => exact fun h => h
  | cons x rest ih => exact fun h => ih (hf x h)

theorem wake (h : Like Q E E') (j : Job) : Like Q (E.wake j) (E'.wake j) := Q.wake h j

theorem goOn (h : Like Q E E') (j : Job) : Like Q (E.goOn j) (E'.goOn j) := Q.goOn h j

theorem say (h : Like Q E E') (e : Entry) : Like Q (E.say e) (E'.say e) := Q.say h e

theorem notice (h : Like Q E E') (n : Notice) : Like Q (E.notice n) (E'.notice n) := h.say _

theorem mark (h : Like Q E E') (r : Nat) (m : Milestone) : Like Q (E.mark r m) (E'.mark r m) :=
  Q.mark h r m

theorem setStage (h : Like Q E E') (r : Nat) (s : Stage) :
    Like Q (E.setStage r s) (E'.setStage r s) := Q.setStage h r s

theorem spawn (h : Like Q E E') (n : Nat) (t : Trigger) (a : Admission) (c : Client) :
    Like Q (E.spawn n t a c).1 (E'.spawn n t a c).1 := Q.spawn h n t a c

/-- Both take over the same, given that they have the rest in common. -/
theorem adopt (h : Like Q E E') (G : Engine) : Like Q (E.adopt G) (E'.adopt G) :=
  Q.adopt h G

/-- What scripts work with is changed in both, by what they have in common. -/
theorem map (h : Like Q E E') {f : Engine → Engine} (hf : ∀ E, f E = E.adopt (f E.face)) :
    Like Q (f E) (f E') := by
  rw [hf E, hf E', ← Q.face h]
  exact h.adopt _

theorem modifyEvaluation (h : Like Q E E') (e : Nat) (f : Evaluation → Evaluation) :
    Like Q (E.modifyEvaluation e f) (E'.modifyEvaluation e f) :=
  h.map (f := (·.modifyEvaluation e f)) fun _ => rfl

theorem setEvaluation (h : Like Q E E') (e : Nat) (s : EvaluationState) :
    Like Q (E.setEvaluation e s) (E'.setEvaluation e s) := h.modifyEvaluation e _

theorem modifyRuleOf (h : Like Q E E') (r : Nat) {f : Rule → Rule}
    (hf : ∀ t i, (f i).sweep t = f (i.sweep t)) :
    Like Q (E.modifyRuleOf r f) (E'.modifyRuleOf r f) := by
  unfold Engine.modifyRuleOf
  rw [h.ruleNumber]
  exact Q.modifyRule h _ hf

theorem mapSlot (h : Like Q E E') (n : Nat) (f : Slot Nat → Slot Nat) :
    Like Q (E.modifyInstance n fun i => { i with slot := f i.slot })
      (E'.modifyInstance n fun i => { i with slot := f i.slot }) := Q.mapSlot h n f

theorem setSlot (h : Like Q E E') (n : Nat) (slot : Slot Nat) :
    Like Q (E.modifyInstance n fun i => { i with slot })
      (E'.modifyInstance n fun i => { i with slot }) := h.mapSlot n fun _ => slot

/-! ## The course of a run -/

theorem free (h : Like Q E E') (r : Nat) : Like Q (E.free r) (E'.free r) := by
  unfold Engine.free
  rw [h.claimed, h.slot, h.ruleNumber]
  split
  · exact foldl (fun w h => h.wake (.run w)) _ (Q.setClaimed (h.setSlot _ _) r false)
  · exact h

theorem answer (h : Like Q E E') (r : Nat) (o : Outcome) : Like Q (E.answer r o) (E'.answer r o) :=
  Q.answer h r o

theorem finish (h : Like Q E E') (r : Nat) (o : Outcome) : Like Q (E.finish r o) (E'.finish r o) :=
  ((h.setStage r _).free r).answer r o

theorem publish (h : Like Q E E') (r : Nat) (s : RunSignal) :
    Like Q (E.publish r s) (E'.publish r s) := by
  unfold Engine.publish
  rw [h.age]
  split
  · exact h
  · dsimp only
    rw [h.id, h.definition, h.trigger, h.bus]
    exact h.map (f := fun E => { E with bus := _ }) fun _ => rfl

theorem hear (h : Like Q E E') (r : Nat) (s : RunSignal) {l l' : Listener}
    (hl : Q.kin l l') : Like Q (E.hear r s l) (E'.hear r s l') := by
  have hm : Like Q (E.mark r (.heard l s)) (E'.mark r (.heard l' s)) := Q.heard h hl r s
  obtain ⟨hname, hrole, -, -⟩ := Q.manners hl
  unfold Engine.hear
  rw [hname, hrole]
  dsimp only
  split
  · next full _ =>
    have hsay := hm.say (.heard l.name full s r)
    rw [hsay.id]
    exact Q.breaks hsay hl s _
  · exact hm.publish r s

/-- Listeners that are related are told the same, one after another. -/
theorem hearAll (r : Nat) (s : RunSignal) {ls ls' : List Listener}
    (hl : List.Forall₂ Q.kin ls ls') : ∀ {E E' : Engine}, Like Q E E' →
      Like Q (ls.foldl (fun E l => E.hear r s l) E) (ls'.foldl (fun E l => E.hear r s l) E') := by
  induction hl with
  | nil => exact fun h => h
  | cons hl _ ih => exact fun h => ih (h.hear r s hl)

theorem tell (h : Like Q E E') (r : Nat) (s : RunSignal) :
    Like Q (E.tell r s) (E'.tell r s) := hearAll r s (Q.audience h r) h

theorem ask (r : Nat) {ls ls' : List Listener} (hl : List.Forall₂ Q.kin ls ls') :
    ∀ {E E' : Engine}, Like Q E E' → Agrees (Like Q) (E.ask r ls) (E'.ask r ls') := by
  induction hl with
  | nil => exact fun h => ⟨rfl, h⟩
  | @cons l l' _ _ hl _ ih =>
    intro E E' h
    have hm : Like Q (E.mark r (.heard l .beforeEvaluate)) (E'.mark r (.heard l' .beforeEvaluate)) :=
      Q.heard h hl r _
    obtain ⟨hname, hrole, hforbids, hbreaks⟩ := Q.manners hl
    unfold Engine.ask
    rw [hname, hrole, hbreaks]
    dsimp only
    split
    · next full _ =>
      have hs := hm.say (.heard l.name full .beforeEvaluate r)
      rw [hs.trigger, hforbids]
      split
      · exact ⟨rfl, hs⟩
      · split
        · exact ⟨rfl, hs⟩
        · exact ih hs
    · exact ih hm

theorem record (h : Like Q E E') (r : Nat) (condition executed : Bool) (error : Option RuleError) :
    Like Q (E.record r condition executed error) (E'.record r condition executed error) := by
  have he : (E'.runAt r).recordAt (E'.ruleOf r).definition E'.now condition executed error
      = (E.runAt r).recordAt (E.ruleOf r).definition E.now condition executed error := by
    rw [h.definition, h.now]
    exact h.run r (·.recordAt (E.ruleOf r).definition E.now condition executed error) fun _ => rfl
  unfold Engine.record
  dsimp only
  rw [he, h.history]
  exact (h.mark r _).map (f := fun E => { E with history := _ }) fun _ => rfl

theorem showFacts (h : Like Q E E') (r : Nat) : Like Q (E.showFacts r) (E'.showFacts r) := by
  unfold Engine.showFacts
  rw [h.context]
  refine foldl (fun f h => ?_) _ h
  rw [h.id, h.settings]
  exact h.say _

theorem evaluate (h : Like Q E E') (r : Nat) (p : Purpose) (text : String) :
    Agrees (Like Q) (E.evaluate r p text) (E'.evaluate r p text) := by
  unfold Engine.evaluate
  rw [h.evaluator, h.context]
  generalize E.evaluator.start p text (E.context r) false = x
  obtain ⟨evaluator, process⟩ := x
  have he : Like Q { E with evaluator } { E' with evaluator } :=
    h.map (f := fun E => { E with evaluator }) fun _ => rfl
  cases process with
  | error e => exact ⟨rfl, he⟩
  | ok process =>
    have hc : E'.commands.names = E.commands.names := by rw [h.commands]
    dsimp only
    rw [h.evaluations, hc]
    let started : Evaluation :=
      { run := r, text, commands := E.commands.names, state := .running process }
    exact ⟨rfl, he.map (f := fun X => { X with evaluations := E.evaluations ++ [started] })
      fun _ => rfl⟩

/-! ### From the start to the end -/

theorem breakOff (h : Like Q E E') (r : Nat) (message : String) :
    Like Q (E.breakOff r message) (E'.breakOff r message) := by
  unfold Engine.breakOff
  dsimp only
  rw [h.id, h.trigger]
  have hn := h.notice (.runPanicked (E.ruleOf r).id (E.runAt r).trigger.node (.panicked message))
  have hm := hn.modifyRuleOf r (f := Rule.markFailed) fun _ _ => rfl
  exact ((hm.tell r _).record r _ _ _).finish r _

theorem conclude (h : Like Q E E') (r : Nat) (result : Except RuleError Json) :
    Like Q (E.conclude r result) (E'.conclude r result) := by
  have hm := h.mark r .concluded
  have hc : Like Q (if (E.ruleOf r).definition.clearFacts
        then (E.mark r .concluded).modifyRuleOf r Rule.clearFacts else E.mark r .concluded)
      (if (E.ruleOf r).definition.clearFacts
        then (E'.mark r .concluded).modifyRuleOf r Rule.clearFacts else E'.mark r .concluded) := by
    split
    · exact hm.modifyRuleOf r (f := Rule.clearFacts) fun _ _ => rfl
    · exact hm
  unfold Engine.conclude
  dsimp only
  rw [h.definition, h.id, h.trigger]
  generalize (if (E.ruleOf r).definition.clearFacts
    then (E.mark r .concluded).modifyRuleOf r Rule.clearFacts else E.mark r .concluded) = X at *
  generalize (if (E.ruleOf r).definition.clearFacts
    then (E'.mark r .concluded).modifyRuleOf r Rule.clearFacts else E'.mark r .concluded) = X' at *
  cases result with
  | ok v =>
    dsimp only
    rw [hc.now]
    have hd := hc.modifyRuleOf r (f := (·.markCompleted X.now true)) fun _ _ => rfl
    rw [hd.age]
    exact ((((hd.notice _).tell r _).tell r _).record r _ _ _).finish r _
  | error e =>
    dsimp only
    rw [hc.now]
    have hd := hc.modifyRuleOf r (f := (·.markCompleted X.now false)) fun _ _ => rfl
    exact (((hd.notice _).tell r _).record r _ _ _).finish r _

theorem act (h : Like Q E E') (r : Nat) : Like Q (E.act r) (E'.act r) := by
  have hs := (h.mark r .attempted).showFacts r
  obtain ⟨X, X', a, hx, hx', hX⟩ := (hs.evaluate r .action (E.ruleOf r).definition.action).pair
  unfold Engine.act
  dsimp only
  rw [h.definition, hx, hx']
  cases a with
  | error e => exact hX.conclude r _
  | ok e =>
    dsimp only
    rw [hX.now]
    exact ((hX.setStage r _).wake _).goOn _

theorem expire (h : Like Q E E') (r e : Nat) : Like Q (E.expire r e) (E'.expire r e) := by
  unfold Engine.expire
  dsimp only
  rw [h.definition]
  exact (h.modifyEvaluation e _).conclude r _

theorem forgo (h : Like Q E E') (r : Nat) : Like Q (E.forgo r) (E'.forgo r) := by
  unfold Engine.forgo
  dsimp only
  rw [h.id]
  exact (((h.notice _).tell r _).record r _ _ _).finish r _

theorem proceed (h : Like Q E E') (r : Nat) : Like Q (E.proceed r) (E'.proceed r) := by
  unfold Engine.proceed
  dsimp only
  rw [h.now, h.inRefractory, h.id, h.definition]
  split
  · exact (((h.notice _).tell r _).record r _ _ _).finish r _
  · have ht := h.tell r .beforeExecute
    split
    · exact ht.act r
    · rw [ht.now]
      exact (ht.setStage r _).goOn _

theorem decideOn (h : Like Q E E') (r : Nat) (result : Except ScriptError Bool) :
    Like Q (E.decideOn r result) (E'.decideOn r result) := by
  unfold Engine.decideOn
  split
  · dsimp only
    rw [h.id, h.trigger]
    exact ((((h.notice _).tell r _).tell r _).record r _ _ _).finish r _
  · exact (((h.tell r _).tell r _).record r _ _ _).finish r _
  · exact (h.tell r _).proceed r

theorem judge (h : Like Q E E') (r : Nat) : Like Q (E.judge r) (E'.judge r) := by
  have hm := ((h.mark r .judged).showFacts r).modifyRuleOf r (f := Rule.markEvaluated)
    fun _ _ => rfl
  unfold Engine.judge
  dsimp only
  rw [hm.definition]
  obtain ⟨X, X', a, hx, hx', hX⟩ := (hm.evaluate r .condition _).pair
  rw [hx, hx']
  cases a with
  | error e => exact hX.decideOn r _
  | ok e => exact (hX.setStage r _).goOn _

theorem start (h : Like Q E E') (r : Nat) : Like Q (E.start r) (E'.start r) := by
  have ho : Like Q (E.opens r) (E'.opens r) := Q.opens h r
  obtain ⟨X, X', a, hx, hx', hX⟩ := (ask r (Q.listeners ho) ho).pair
  rw [start_eq, start_eq, h.now, h.inRefractory, h.id, hx, hx']
  split
  · exact (h.notice _).finish r _
  · cases a with
    | error m => exact hX.breakOff r m
    | ok allowed =>
      cases allowed with
      | false =>
        dsimp only
        rw [hX.trigger]
        exact (hX.notice _).finish r _
      | true => exact hX.judge r

theorem hold (h : Like Q E E') (r : Nat) (slot : Slot Nat) :
    Like Q (E.hold r slot) (E'.hold r slot) := by
  unfold Engine.hold
  rw [h.ruleNumber]
  exact Q.setClaimed (h.setSlot _ slot) r true

theorem claim (h : Like Q E E') {r : Nat} (hi : Indifferent E E' r) :
    Like Q (E.claim r) (E'.claim r) := by
  unfold Engine.claim
  dsimp only
  rw [h.retired, h.slot, h.ruleNumber, h.id]
  split
  · exact h.finish r _
  · next hret =>
    split
    · exact (h.hold r _).start r
    · next hc =>
      obtain ha | ha | ha := hi
      · rw [ha]
        split
        · exact (h.notice _).finish r _
        · exact (h.mapSlot _ (·.enlist r)).setStage r _
      · exact absurd ha hret
      · rw [Slot.claim?, if_pos ha] at hc
        cases hc

theorem cancelDeferral (h : Like Q E E') (r : Nat) :
    Like Q (E.cancelDeferral r) (E'.cancelDeferral r) := by
  unfold Engine.cancelDeferral
  rw [h.stage]
  split
  · exact (h.setStage r _).wake _
  · exact h

theorem defer (h : Like Q E E') (r : Nat) : Like Q (E.defer r) (E'.defer r) := by
  have hs := h.modifyRuleOf r (f := (·.supersede r)) fun _ _ => rfl
  unfold Engine.defer
  dsimp only
  rw [h.generation, h.definition, h.pending, h.id]
  cases (E.ruleOf r).pending with
  | none =>
    dsimp only
    rw [hs.now]
    exact (hs.setStage r _).answer r _
  | some p =>
    have hc := (hs.notice (.superseded (E.ruleOf r).id p.1)).cancelDeferral p.2
    dsimp only
    rw [hc.now]
    exact (hc.setStage r _).answer r _

theorem recordFact (h : Like Q E E') (r : Nat) (node name : String) (value : Json) :
    Like Q (E.modifyRuleOf r (·.recordFact E.now node name value))
      (E'.modifyRuleOf r (·.recordFact E.now node name value)) := by
  unfold Engine.modifyRuleOf
  rw [h.ruleNumber]
  exact Q.recordFact h _ node name value

theorem arrive (h : Like Q E E') {r : Nat} (hi : Indifferent E E' r) :
    Like Q (E.arrive r) (E'.arrive r) := by
  unfold Engine.arrive
  dsimp only
  rw [h.now, h.paused, h.inRefractory, h.id, h.definition, h.trigger]
  split
  · exact (h.notice _).finish r _
  · split
    · exact (h.notice _).finish r _
    · have ha : Like Q _ _ := Q.setAdmitted (h.recordFact r (E.runAt r).trigger.node
        (E.runAt r).trigger.name (E.runAt r).trigger.value) r
      split
      · refine ha.claim (Indifferent.modifyRun (Indifferent.modifyRuleOf hi ?_) ?_)
        · exact fun _ => rfl
        · exact fun _ => ⟨rfl, rfl⟩
      · exact ha.defer r

/-! ### Turns of a run -/

theorem wakeDeferred (h : Like Q E E') {r : Nat} (hi : Indifferent E E' r) (g due : Nat)
    (cancelled second : Bool) :
    Like Q (E.wakeDeferred r g due cancelled second) (E'.wakeDeferred r g due cancelled second) := by
  unfold Engine.wakeDeferred
  rw [h.now, h.id]
  split
  · refine (h.modifyRuleOf r (f := (·.finishPending g)) fun t i => ?_).claim ?_
    · unfold Rule.finishPending
      have hp : (i.sweep t).pending = i.pending := rfl
      rw [hp]
      split
      · split <;> rfl
      · rfl
    · exact hi.modifyRuleOf fun i => by unfold Rule.finishPending; split <;> [split; skip] <;> rfl
  · split
    · exact (h.notice _).setStage r _
    · exact h

theorem wakeWaiting (h : Like Q E E') (r : Nat) (second : Bool) :
    Like Q (E.wakeWaiting r second) (E'.wakeWaiting r second) := by
  unfold Engine.wakeWaiting
  dsimp only
  rw [h.slot, h.retired, h.id, h.ruleNumber]
  split
  · exact (h.hold r _).start r
  · split
    · exact ((h.mapSlot _ (·.forget r)).notice _).finish r _
    · split
      · exact h.mapSlot _ (·.enlist r)
      · exact h

theorem wakeDelayed (h : Like Q E E') (r due : Nat) (second : Bool) :
    Like Q (E.wakeDelayed r due second) (E'.wakeDelayed r due second) := by
  unfold Engine.wakeDelayed
  dsimp only
  rw [h.now, h.retired]
  split
  · exact h.act r
  · split
    · exact h.forgo r
    · exact h

/-- **A turn of a run does the same to both.** Only a run that has not claimed the slot yet depends
on how it was admitted. -/
theorem performRun (h : Like Q E E') {r : Nat} (second : Bool)
    (hi : (E.runAt r).isComing → Indifferent E E' r) :
    Like Q (E.performRun r second) (E'.performRun r second) := by
  have hstage : ∀ (E : Engine) (x : Run), E.runs[r]? = some x → E.runAt r = x := by
    intro E x hx
    rw [Engine.runAt, List.getD_eq_getElem?_getD, hx]
    rfl
  unfold Engine.performRun
  cases hx : E.runs[r]? with
  | none =>
    have hx' : E'.runs[r]? = none := by
      rw [List.getElem?_eq_none_iff] at hx ⊢
      exact h.length ▸ hx
    rw [hx']
    exact h
  | some x =>
    obtain ⟨x', hx'⟩ : ∃ x', E'.runs[r]? = some x' := by
      obtain ⟨hr, -⟩ := List.getElem?_eq_some_iff.mp hx
      exact ⟨_, List.getElem?_eq_getElem (h.length ▸ hr)⟩
    have hs : x'.stage = x.stage := by
      rw [← hstage E x hx, ← hstage E' x' hx']
      exact h.stage r
    rw [hstage E x hx, Run.isComing] at hi
    rw [hx']
    dsimp only
    rw [hs]
    cases hxs : x.stage with
    | arriving => exact h.arrive (hi (by rw [hxs]; trivial))
    | deferred g due cancelled => exact h.wakeDeferred (hi (by rw [hxs]; trivial)) g due cancelled second
    | waiting => exact h.wakeWaiting r second
    | judging e => exact h
    | delayed due => exact h.wakeDelayed r due second
    | acting e deadline =>
      cases deadline with
      | none => exact h
      | some deadline =>
        dsimp only
        rw [h.now]
        split
        · exact h.expire r e
        · exact h
    | ended ending => exact h

end Like


end Engine

end ReactiveRules
