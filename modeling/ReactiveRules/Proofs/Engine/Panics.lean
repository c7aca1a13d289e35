import ReactiveRules.Proofs.Engine.Callbacks
import ReactiveRules.Proofs.Engine.Housekeeping
import ReactiveRules.Proofs.Likeness.Whole

/-!
# `Proofs/Engine/Panics.lean` — listeners that break off

A listener that is asked whether a run may take place ends the run by breaking off. On any other
signal it may do so as it likes: an engine in which it does is the same as one in which it does not,
but for the notice of it (`Engine.calm`). **Two courses of an engine that differ only in who breaks
off on what, other than on the question, cannot be told apart** (`panics_invisible`).
-/

set_option autoImplicit false

namespace ReactiveRules

/-! ## Calm engines -/

/-- The listener as it is if it breaks off at most when it is asked. -/
def Listener.calm (l : Listener) : Listener :=
  { l with panics := l.panics.filter (· == RunSignal.beforeEvaluate.name) }

def Milestone.calm : Milestone → Milestone
  | .heard l s => .heard l.calm s
  | m => m

def Run.calm (x : Run) : Run :=
  { x with audience := x.audience.map Listener.calm, log := x.log.map Milestone.calm }

/-- Does an entry tell that a listener has broken off? -/
def Entry.isPanic : Entry → Bool
  | .notice (.listenerPanicked ..) => true
  | _ => false

namespace Engine

/-- The engine as it is if its listeners break off at most when they are asked. -/
def calm (E : Engine) : Engine :=
  { E with
    listeners := E.listeners.map Listener.calm
    runs := E.runs.map Run.calm
    journal := E.journal.filter fun x => !x.2.isPanic }

/-- The two engines are the same but for what listeners break off on, other than on being asked,
and for the notices of it. -/
def SameButPanics (E E' : Engine) : Prop := E.calm = E'.calm

variable {E E' : Engine}

theorem breaksOn_calm (l : Listener) :
    l.calm.breaksOn .beforeEvaluate = l.breaksOn .beforeEvaluate := by
  unfold Listener.breaksOn Listener.calm
  simp

theorem calm_runAt (E : Engine) (r : Nat) : E.calm.runAt r = (E.runAt r).calm := by
  unfold runAt calm
  simp only [List.getD_eq_getElem?_getD, List.getElem?_map]
  cases E.runs[r]? <;> rfl

theorem calm_ruleOf (E : Engine) (r : Nat) : E.calm.ruleOf r = E.ruleOf r := by
  unfold ruleOf
  rw [calm_runAt]
  rfl

theorem calm_face (E : Engine) : E.calm.face = E.face := by
  unfold face calm
  simp only [List.map_map]
  rfl

theorem calm_frame (E : Engine) : E.calm.frame = E.frame := by
  unfold frame
  rw [calm_face]
  rfl

/-! ### Changing one thing -/

theorem calm_modifyRun (E : Engine) (r : Nat) {f f' : Run → Run}
    (hf : ∀ x, (f x).calm = f' x.calm) : (E.modifyRun r f).calm = E.calm.modifyRun r f' := by
  have hr : (E.runs.modify r f).map Run.calm = (E.runs.map Run.calm).modify r f' := by
    apply List.ext_getElem?
    intro m
    simp only [List.getElem?_map, List.getElem?_modify]
    by_cases hm : r = m <;> cases E.runs[m]? <;> simp [hm, hf]
  show ({ E.calm with runs := (E.runs.modify r f).map Run.calm } : Engine) = _
  rw [hr]
  rfl

theorem calm_mark (E : Engine) (r : Nat) (m : Milestone) :
    (E.mark r m).calm = E.calm.mark r m.calm :=
  E.calm_modifyRun r fun x => by
    simp only [Run.calm, List.map_append, List.map_cons, List.map_nil]

theorem calm_say (E : Engine) (e : Entry) :
    (E.say e).calm = if e.isPanic then E.calm else E.calm.say e := by
  have hj : (E.journal ++ [(E.now, e)]).filter (fun x => !x.2.isPanic)
      = E.calm.journal ++ if e.isPanic then [] else [(E.now, e)] := by
    rw [List.filter_append]
    cases he : e.isPanic <;> simp [he, calm]
  show ({ E.calm with journal := (E.journal ++ [(E.now, e)]).filter fun x => !x.2.isPanic } :
    Engine) = _
  rw [hj]
  split
  · rw [List.append_nil]
  · rfl

theorem calm_wake (E : Engine) (j : Job) : (E.wake j).calm = E.calm.wake j := by
  have hr : E.calm.ready = E.ready := rfl
  unfold wake
  rw [hr]
  split <;> rfl

theorem calm_reply (E : Engine) (e : Nat) (a : Script.Reply) :
    (E.reply e a).calm = E.calm.reply e a := by
  have he : E.calm.evaluationAt e = E.evaluationAt e := rfl
  unfold reply
  rw [he]
  split <;> rfl

theorem calm_answer (E : Engine) (r : Nat) (o : Outcome) :
    (E.answer r o).calm = E.calm.answer r o := by
  have ha : (E.modifyRun r fun x => { x with answered := true }).calm
      = E.calm.modifyRun r fun x => { x with answered := true } :=
    E.calm_modifyRun r fun _ => rfl
  unfold answer
  dsimp only
  rw [← ha, calm_runAt, calm_runAt]
  have hr : (E.runAt r).calm.answered = (E.runAt r).answered := rfl
  generalize E.modifyRun r (fun x => { x with answered := true }) = A
  have hc : (A.runAt r).calm.client = (A.runAt r).client := rfl
  rw [hr, hc]
  split
  · rfl
  · split
    · rfl
    · rfl
    · rfl
    · exact calm_reply A _ _

theorem calm_keepHouse (E : Engine) : E.keepHouse.calm = E.calm.keepHouse := by
  have hs : E.calm.sweep = (E.sweep.1.calm, E.sweep.2) := rfl
  have hq : E.calm.queue = E.queue := rfl
  have hn : E.calm.now = E.now := rfl
  unfold keepHouse
  rw [hs, hq, hn]
  dsimp only
  split
  · exact calm_say _ _
  · rfl

/-! ## Likeness -/

namespace SameButPanics

theorem refl (E : Engine) : E.SameButPanics E := rfl

theorem symm (h : E.SameButPanics E') : E'.SameButPanics E := Eq.symm h

theorem trans {E'' : Engine} (h : E.SameButPanics E') (h' : E'.SameButPanics E'') :
    E.SameButPanics E'' := Eq.trans h h'

/-- What is seen of calm engines is seen of both. -/
theorem see {β : Type} (h : E.SameButPanics E') (f : Engine → β) (hf : ∀ E, f E.calm = f E) :
    f E' = f E := by
  rw [← hf E', ← hf E]
  exact congrArg f (Eq.symm h)

/-- What can be done just as well to calm engines does the same to both. -/
theorem recast {f g : Engine → Engine} (h : E.SameButPanics E')
    (hf : ∀ E, (f E).calm = g E.calm) : (f E).SameButPanics (f E') := by
  unfold SameButPanics
  rw [hf, hf, show E.calm = E'.calm from h]

theorem map {f : Engine → Engine} (h : E.SameButPanics E') (hf : ∀ E, (f E).calm = f E.calm) :
    (f E).SameButPanics (f E') := h.recast hf

theorem say (h : E.SameButPanics E') (e : Entry) : (E.say e).SameButPanics (E'.say e) :=
  h.recast (f := (·.say e)) (g := fun C => if e.isPanic then C else C.say e) fun E => E.calm_say e

theorem runAt (h : E.SameButPanics E') (r : Nat) : (E.runAt r).calm = (E'.runAt r).calm := by
  rw [← calm_runAt, ← calm_runAt, show E.calm = E'.calm from h]

theorem modifyRun (h : E.SameButPanics E') (r : Nat) {f : Run → Run}
    (hf : ∀ x, (f x).calm = f x.calm) : (E.modifyRun r f).SameButPanics (E'.modifyRun r f) :=
  h.map (f := (·.modifyRun r f)) fun E => E.calm_modifyRun r hf

/-- An operation on the registry does the same to both. -/
theorem enrols {α : Type} (h : E.SameButPanics E') (f : Registry → Registry × α) :
    Agrees SameButPanics (E.enrols (f E.registry)) (E'.enrols (f E'.registry)) :=
  ⟨h.see (fun E => (f E.registry).2) fun _ => rfl,
    h.map (f := fun E => { E with registry := (f E.registry).1 }) fun _ => rfl⟩

/-- An operation on the queue does the same to both. -/
theorem lines {α : Type} (h : E.SameButPanics E')
    (f : DispatchQueue Trigger (Nat × Nat) → DispatchQueue Trigger (Nat × Nat) × α) :
    Agrees SameButPanics (E.lines (f E.queue)) (E'.lines (f E'.queue)) :=
  ⟨h.see (fun E => (f E.queue).2) fun _ => rfl,
    h.map (f := fun E => { E with queue := (f E.queue).1 }) fun _ => rfl⟩

theorem heard {l l' : Listener} (h : E.SameButPanics E') (hl : l.calm = l'.calm) (r : Nat)
    (s : RunSignal) : (E.mark r (.heard l s)).SameButPanics (E'.mark r (.heard l' s)) := by
  unfold SameButPanics
  rw [calm_mark, calm_mark, show E.calm = E'.calm from h]
  show E'.calm.mark r (.heard l.calm s) = E'.calm.mark r (.heard l'.calm s)
  rw [hl]

end SameButPanics

theorem forall₂_calm {ls ls' : List Listener}
    (h : ls.map Listener.calm = ls'.map Listener.calm) :
    List.Forall₂ (fun l l' => l.calm = l'.calm) ls ls' := by
  have hf : List.Forall₂ Eq (ls.map Listener.calm) (ls'.map Listener.calm) :=
    List.forall₂_eq_eq_eq ▸ h
  exact List.forall₂_map_right_iff.mp (List.forall₂_map_left_iff.mp hf)

theorem findIdx?_calm (E : Engine) (c : Client) :
    E.calm.runs.findIdx? (isSuspended · c) = E.runs.findIdx? (isSuspended · c) := by
  unfold calm
  rw [List.findIdx?_map]
  rfl

/-- Who breaks off, other than when asked, is of no account to anything that is done. -/
def calmly : Parity where
  rel := SameButPanics
  kin l l' := l.calm = l'.calm
  face h := (h.see Engine.face calm_face).symm
  facts h r := by
    rw [h.see (·.ruleOf r) (calm_ruleOf · r)]
  listeners h := forall₂_calm (congrArg Engine.listeners h)
  audience h r := forall₂_calm (congrArg Run.audience (h.runAt r))
  manners {l l'} h := by
    refine ⟨(congrArg Listener.name h).symm, (congrArg Listener.role h).symm, fun t => ?_, ?_⟩
    · exact (congrArg (·.forbids t) h).symm
    · rw [← breaksOn_calm l', ← breaksOn_calm l, h]
  adopt h G := h.map (f := (·.adopt G)) fun _ => rfl
  say h e := h.say e
  wake h j := h.map (f := (·.wake j)) (calm_wake · j)
  goOn h j := h.map (f := (·.goOn j)) fun _ => rfl
  mark h r m := h.recast (f := (·.mark r m)) (g := (·.mark r m.calm)) (calm_mark · r m)
  setStage h r s := h.modifyRun r fun _ => rfl
  setClaimed h r b := h.modifyRun r (f := fun x => { x with claimed := b }) fun _ => rfl
  setAdmitted h r := h.modifyRun r (f := fun x => { x with admitted := true }) fun _ => rfl
  spawn h n t a c := h.map (f := (·.spawn n t a c |>.1)) fun E => by
    simp only [spawn, calm, List.map_append]
    rfl
  opens h r := h.map (f := (·.opens r)) fun E => by
    unfold opens
    rw [calm_mark, calm_modifyRun]
    · rfl
    · exact fun _ => rfl
  heard h hl r s := h.heard hl r s
  breaks {E E' l l'} h _ s rule := by
    have hone : ∀ (E : Engine) (b : Bool),
        (if b then E.notice (.listenerPanicked rule s.name) else E).SameButPanics E := by
      intro E b
      cases b with
      | true => exact calm_say E _
      | false => rfl
    exact ((hone E _).trans h).trans (hone E' _).symm
  answer h r o := h.map (f := (·.answer r o)) (calm_answer · r o)
  modifyRule h n f _ :=
    h.map (f := (·.modifyInstance n (.mapRule f))) fun _ => rfl
  recordFact h n node name value := h.map (f := (·.modifyInstance n _)) fun _ => rfl
  mapSlot h n f := h.map (f := (·.modifyInstance n _)) fun _ => rfl
  register h d := h.enrols (·.register d)
  deregister h id := h.enrols (·.deregister id)
  frame h := (h.see Engine.frame calm_frame).symm
  admission h r := (congrArg Run.admission (h.runAt r)).symm
  suspended {E E'} h c := by
    rw [← findIdx?_calm E', ← findIdx?_calm E, show E.calm = E'.calm from h]
  install h G := h.map (f := (·.install G)) fun _ => rfl
  setNow h t _ := h.map (f := fun E => { E with now := t }) fun _ => rfl
  take h w := h.lines (·.take w)
  resume h w := h.lines (·.resume w)
  abort h w := h.map (f := fun E => { E with queue := E.queue.abort w }) fun _ => rfl
  keepHouse h := h.map (f := keepHouse) calm_keepHouse
  sweep h := h.map (f := fun E => E.sweep.1) fun _ => rfl
  observe h node id := h.enrols (·.observe node id)
  add h d := h.enrols (·.add d)
  listen h l := h.recast (f := (·.listen l)) (g := (·.listen l.calm)) fun E => by
    simp only [listen, calm, List.map_append]
    rfl
  unlisten h n := h.map (f := fun E => (E.unlisten n).1) fun E => by
    simp only [unlisten, calm, List.filter_map]
    rfl

namespace SameButPanics

theorem like (h : E.SameButPanics E') : Like calmly E E' := h

/-- A dispatch to both is answered alike. -/
theorem dispatches : Dispatches calmly E E' := by
  intro X X' _ _ h t
  have hi : X'.registry.find? t.rule = X.registry.find? t.rule :=
    see h (·.registry.find? t.rule) fun _ => rfl
  have hq : X'.queue = X.queue := see h Engine.queue fun _ => rfl
  unfold dispatch
  rw [hi]
  split
  · exact ⟨rfl, h⟩
  · have ho : X'.queue.offer X'.now = X.queue.offer X.now := by rw [hq, h.now]
    dsimp only
    rw [ho]
    split
    · exact ⟨rfl, (h.notice _).notice _⟩
    · next q _ =>
      have hE : Like calmly { X with queue := q } { X' with queue := q } :=
        map h (f := fun E => { E with queue := q }) fun _ => rfl
      exact ⟨rfl, hE.wakeWorkers⟩

/-- **A move does the same to both.** -/
theorem moved (h : E.SameButPanics E') (m : Move) :
    (E.moved true m).SameButPanics (E'.moved true m) := by
  cases m with
  | turn j second => exact h.like.turn dispatches j second
  | strike ms =>
    unfold Engine.moved
    rw [h.like.now]
    exact h.like.strike (Nat.le_add_right _ _)
  | pass ms =>
    unfold Engine.moved
    dsimp only
    rw [h.like.now]
    exact calmly.setNow h (Nat.le_add_right _ _)
  | request q => exact h.like.serve dispatches q

end SameButPanics

/-! ## Courses -/

/-- The engine makes these moves, and before every one of them its listeners, also those of runs
that have begun, may change what they break off on, other than on being asked. -/
def Moody (E : Nat → Engine) (ms : Nat → Move) : Prop :=
  ∀ k, ∃ F, (E k).SameButPanics F ∧ E (k + 1) = F.moved true (ms k)

/-- What can be told of an engine but for notices that a listener has broken off. -/
structure Undisturbed (E E' : Engine) : Prop where
  /-- Facts, counters, what is put off, who rests and who is paused. -/
  rules : E'.registry = E.registry
  history : E'.history = E.history
  /-- What tasks have ended with, and where every run stands. -/
  outcomes : E'.finished = E.finished ∧ ∀ r, (E'.runAt r).stage = (E.runAt r).stage
  /-- What the evaluator was asked, and what became of it. -/
  evaluations : E'.evaluator = E.evaluator ∧ E'.evaluations = E.evaluations
  /-- What commands are bound, and how often they have been called. -/
  commands : E'.commands = E.commands
  /-- Every run has told the same to its listeners, in the same order. -/
  callbacks : ∀ r, (E'.runAt r).callbacks.map (fun c => (c.1.number, c.2))
    = (E.runAt r).callbacks.map fun c => (c.1.number, c.2)
  /-- The calls of commands, what was told to whom, and all other notices. -/
  journal : (E'.journal.filter fun x => !x.2.isPanic) = E.journal.filter fun x => !x.2.isPanic
  bus : E'.bus = E.bus
  /-- The two are the same also in all the rest. -/
  rest : E.SameButPanics E'

theorem callbacks_calm (x : Run) : x.calm.callbacks.map (fun c => (c.1.number, c.2))
    = x.callbacks.map fun c => (c.1.number, c.2) := by
  show ((x.log.map Milestone.calm).filterMap Milestone.callback?).map _ = _
  unfold Run.callbacks
  rw [List.filterMap_map, List.map_filterMap, List.map_filterMap]
  refine List.filterMap_congr fun m _ => ?_
  cases m <;> rfl

theorem SameButPanics.undisturbed (h : E.SameButPanics E') : E.Undisturbed E' where
  rules := h.see Engine.registry fun _ => rfl
  history := h.like.history
  outcomes := ⟨h.like.finished, h.like.stage⟩
  evaluations := ⟨h.like.evaluator, h.like.evaluations⟩
  commands := h.like.commands
  callbacks r := by rw [← callbacks_calm (E.runAt r), ← callbacks_calm, h.runAt]
  journal := (congrArg Engine.journal h).symm
  bus := h.like.bus
  rest := h

theorem Moody.sameButPanics {E E' : Nat → Engine} {ms : Nat → Move} (h : Moody E ms)
    (h' : Moody E' ms) (h₀ : (E 0).SameButPanics (E' 0)) (k : Nat) :
    (E k).SameButPanics (E' k) := by
  induction k with
  | zero => exact h₀
  | succ k ih =>
    obtain ⟨F, hF, hE⟩ := h k
    obtain ⟨F', hF', hE'⟩ := h' k
    rw [hE, hE']
    exact ((hF.symm.trans ih).trans hF').moved (ms k)

/-- **A listener that breaks off cannot be told from one that does not**, but for the notice of it,
unless it is asked. Whatever engine it is, whatever is done to it, and whoever breaks off when: the
rules, the outcomes, the evaluations, the calls of commands, the history and what all listeners
hear are the same. -/
theorem panics_invisible {E E' : Nat → Engine} {ms : Nat → Move} (h : Moody E ms)
    (h' : Moody E' ms) (h₀ : (E 0).SameButPanics (E' 0)) (k : Nat) : (E k).Undisturbed (E' k) :=
  (h.sameButPanics h' h₀ k).undisturbed

/-! ### A listener that breaks off on everything -/

/-- A course without a change of moods. -/
theorem moody_course (E : Engine) (ms : Nat → Move) : Moody (E.course .usual ms) ms :=
  fun _ => ⟨_, .refl _, rfl⟩

/-- A listener that breaks off on the signals of these names. -/
def nervous (panics : List String) : Listener :=
  { number := 1, name := "l", role := .reporter true, panics }

/-- A notification of a rule, from its definition to its outcome. -/
def notifying : Nat → Move
  | 0 => .request (.define prompt)
  | 1 => .request (.notify 0 change .dropIfBusy)
  | 2 => .turn (.run 0) false
  | k + 3 => .turn (.script k) false

/-- The listener breaks off four times in one run, which is completed all the same. -/
theorem nervous_undisturbed :
    let E := (blank.listen (nervous
      ["after_evaluate", "before_execute", "after_execute", "on_success"])).course .usual notifying
    let E' := (blank.listen (nervous [])).course .usual notifying
    (E 5).Undisturbed (E' 5) ∧ (E 5).journal.countP (·.2.isPanic) = 4 ∧
      (E' 5).journal.countP (·.2.isPanic) = 0 ∧
      ((E 5).runAt 0).callbacks.length = 5 ∧ (E 5).finished.length = 1 :=
  ⟨panics_invisible (moody_course _ _) (moody_course _ _) (by rfl) 5, by decide +kernel,
    by decide +kernel, by decide +kernel, by decide +kernel⟩

end Engine

end ReactiveRules
