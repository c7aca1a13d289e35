import ReactiveRules.Proofs.Engine.Tidy

/-!
# `Proofs/Engine/Resemblance.lean` — engines that differ in what may be forgotten

Resemblance is a parity (`Engine.housekept`). **Whatever is done to two engines that resemble each
other, they answer the same and still resemble each other** (`Resembles.turn`, `Resembles.serve`,
`Resembles.dispatch`). Of the queue it has to be known that it remembers no payload twice; else what
is forgotten might lay bare an older acceptance.
-/

set_option autoImplicit false

namespace ReactiveRules

namespace Engine

variable {E E' : Engine}

/-- Resemblance, as a relation that nothing done to both engines can break. -/
def housekept : Parity where
  rel := Resembles
  kin := Eq
  face h := h.face
  facts h := h.validFacts
  listeners h := List.forall₂_eq_eq_eq ▸ (h.see Engine.listeners fun _ => rfl).symm
  audience h r := List.forall₂_eq_eq_eq ▸ congrArg Run.audience (h.runAt r).symm
  manners := by
    rintro l _ rfl
    exact ⟨rfl, rfl, fun _ => rfl, rfl⟩
  adopt h G := h.map (f := (·.adopt G)) fun _ => rfl
  say h e := h.say e
  wake h j := h.wake j
  goOn h j := h.map (f := (·.goOn j)) fun _ => rfl
  mark h r m := h.map (f := (·.mark r m)) fun _ => rfl
  setStage h r s := h.map (f := (·.setStage r s)) fun _ => rfl
  setClaimed h r b := h.map (f := (·.modifyRun r fun x => { x with claimed := b })) fun _ => rfl
  setAdmitted h r := h.map (f := (·.modifyRun r fun x => { x with admitted := true })) fun _ => rfl
  spawn h n t a c := h.map (f := (·.spawn n t a c |>.1)) fun _ => rfl
  opens h r := h.map (f := (·.opens r)) fun _ => rfl
  heard := by
    rintro E E' l _ h rfl r s
    exact h.map (f := (·.mark r (.heard l s))) fun _ => rfl
  breaks := by
    rintro E E' l _ h rfl s rule
    split
    · exact h.say _
    · exact h
  answer h r o := h.answer r o
  modifyRule h n _ hf := h.modifyRule n hf
  recordFact h n node name value := h.recordFact n node name value
  mapSlot h n f := h.modifySame (f := fun i => { i with slot := f i.slot }) n fun _ => rfl
  register h d := ⟨(h.registry.register d).answer, h.setRegistry (h.registry.register d).state⟩
  deregister h id :=
    ⟨(h.registry.deregister id).answer, h.setRegistry (h.registry.deregister id).state⟩
  frame h := h.frame
  admission h r := congrArg Run.admission (h.runAt r)
  suspended h c := by rw [h.runs]
  install h G := h.map (f := (·.install G)) fun _ => rfl
  setNow h := fun ht => h.setNow ht
  take h w := h.lines (by rw [← DispatchQueue.cleanUp_take, h.queue, DispatchQueue.cleanUp_take])
  resume h w :=
    h.lines (by rw [← DispatchQueue.cleanUp_resume, h.queue, DispatchQueue.cleanUp_resume])
  abort h w :=
    h.setQueue (by rw [← DispatchQueue.cleanUp_abort, h.queue, DispatchQueue.cleanUp_abort])
  keepHouse {E E'} h := (E.keepHouse_resembles.trans h).trans E'.keepHouse_resembles.symm
  sweep {E E'} h := (E.sweep_resembles.trans h).trans E'.sweep_resembles.symm
  observe h node id :=
    ⟨(h.registry.observe node id).answer, h.setRegistry (h.registry.observe node id).state⟩
  add h d := ⟨(h.registry.add d).answer, h.setRegistry (h.registry.add d).state⟩
  listen h l := h.map (f := (·.listen l)) fun _ => rfl
  unlisten h n := h.map (f := fun E => (E.unlisten n).1) fun _ => rfl

namespace Resembles

/-- What is done alike to all engines that are related by a parity is done alike to both. -/
theorem like (h : E.Resembles E') : Like housekept E E' := h

theorem stats (h : E.Resembles E') (id : String) : E'.stats id = E.stats id := h.like.stats id

theorem dispatch (h : E.Resembles E') (hd : E.queue.Distinct) (hd' : E'.queue.Distinct)
    (t : Trigger) : Agrees Resembles (E.dispatch t) (E'.dispatch t) := by
  unfold Engine.dispatch
  rcases h.like.find t.rule with ⟨hi, hi'⟩ | ⟨i, i', hi, hi', he⟩ <;> rw [hi, hi']
  · exact ⟨rfl, h⟩
  · have hv : i'.definition = i.definition := congrArg (·.definition) he
    obtain ⟨ha, hq⟩ := DispatchQueue.offer_eq hd hd' h.queue t i.definition.priority.toInt
    obtain ⟨q, q', a, hx, hx', hq⟩ :=
      (Agrees.mk (r := fun q q' => q.cleanUp E.now = q'.cleanUp E.now) ha hq).pair
    rw [← hv, ← h.now] at hx'
    dsimp only
    rw [hx, hx', hv]
    have hE : Resembles { E with queue := q } { E' with queue := q' } := h.setQueue hq
    cases a with
    | false => exact ⟨rfl, (h.like.notice _).notice _⟩
    | true => exact ⟨rfl, hE.like.wakeWorkers⟩

theorem dispatches (hd : E.queue.Distinct) (hd' : E'.queue.Distinct) :
    Dispatches housekept E E' := fun _ _ hq hq' h t =>
  Resembles.dispatch h (hq ▸ hd) (hq' ▸ hd') t

theorem turn (h : E.Resembles E') (hd : E.queue.Distinct) (hd' : E'.queue.Distinct) (j : Job)
    (second : Bool) : (E.turn j second).Resembles (E'.turn j second) :=
  h.like.turn (dispatches hd hd') j second

theorem serve (h : E.Resembles E') (hd : E.queue.Distinct) (hd' : E'.queue.Distinct)
    (q : Request) : (E.serve q).Resembles (E'.serve q) := h.like.serve (dispatches hd hd') q

end Resembles

end Engine

end ReactiveRules
