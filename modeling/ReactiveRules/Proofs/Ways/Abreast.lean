import ReactiveRules.Proofs.Ways.Outline

/-!
# `Proofs/Ways/Abreast.lean` — operations on engines that are abreast

Whatever an operation does, it does the same to two engines that are abreast, be it to the outline or
to the errand. **So no turn of a run can tell how a notification came in, nor a step of a script**
(`abreast`), but that the errand's own run has to find the slot open.
-/

set_option autoImplicit false

namespace ReactiveRules

namespace Engine

variable {p : Errand} {E E' E'' F : Engine}

namespace Abreast

theorem setReady (h : Abreast p E E') {rs rs' : List Job}
    (ho : (rs.filter fun j => !p.owns j).Perm (rs'.filter fun j => !p.owns j)) :
    Abreast p { E with ready := rs } { E' with ready := rs' } where
  outline := h.outline
  beside :=
    { others := ho
      queue := h.beside.queue
      host := h.beside.host
      left := { h.beside.left with }
      right := { h.beside.right with } }

theorem wake (h : Abreast p E E') (j : Job) : Abreast p (E.wake j) (E'.wake j) := by
  have ho : ((E.wake j).others p).Perm ((E'.wake j).others p) := by
    rw [others_wake, others_wake]
    have hmem : j ∈ E.others p ↔ j ∈ E'.others p := h.beside.others.mem_iff
    by_cases hc : p.owns j = true ∨ j ∈ E.others p
    · rw [if_pos hc, if_pos (hc.imp_right hmem.mp)]
      exact h.beside.others
    · rw [if_neg hc, if_neg fun hc' => hc (hc'.imp_right hmem.mpr)]
      exact h.beside.others.append_right _
  have hw : ∀ E : Engine, E.wake j = { E with ready := (E.wake j).ready } := by
    intro E
    unfold Engine.wake
    split <;> rfl
  rw [hw E, hw E']
  exact h.setReady ho

theorem goOn (h : Abreast p E E') (j : Job) : Abreast p (E.goOn j) (E'.goOn j) := by
  have ho : ((E.goOn j).others p).Perm ((E'.goOn j).others p) := by
    rw [others_goOn, others_goOn]
    split
    · exact h.beside.others
    · exact (h.beside.others.erase j).cons j
  exact h.setReady ho

/-- It is the same whether a job goes on or is woken. -/
theorem wake_goOn (h : Abreast p E E') {j : Job} (hj : p.owns j = false) :
    Abreast p (E.wake j) (E'.goOn j) := by
  have hw : E.wake j = { E with ready := (E.wake j).ready } := by
    unfold Engine.wake
    split <;> rfl
  rw [hw]
  exact h.setReady ((others_perm E hj).trans (h.goOn j).beside.others)

/-! ## Changing one thing -/

theorem say (h : Abreast p E E') (e : Entry) : Abreast p (E.say e) (E'.say e) := by
  refine h.recast (f := (·.say e)) (g := fun X => if e.isHousekeeping then X else X.say e)
    (fun E => ?_) fun _ => rfl
  have hj : (E.journal ++ [(E.now, e)]).filter (fun x => !x.2.isHousekeeping)
      = (E.outline p).journal ++ if e.isHousekeeping then [] else [(E.now, e)] := by
    rw [List.filter_append]
    cases he : e.isHousekeeping <;> simp [he, Engine.outline]
  show ({ E.outline p with
    journal := (E.journal ++ [(E.now, e)]).filter fun x => !x.2.isHousekeeping } : Engine) = _
  rw [hj]
  split
  · rw [List.append_nil]
  · rfl

theorem modifyRun (h : Abreast p E E') (m : Nat) {f : Run → Run}
    (hf : m = p.run → ∀ x, (f x).anonymous = f x.anonymous) (hc : ∀ x, (f x).client = x.client) :
    Abreast p (E.modifyRun m f) (E'.modifyRun m f) :=
  h.map (f := (·.modifyRun m f)) (fun E => E.outline_modifyRun p m hf) fun E => E.rim_modifyRun m hc

theorem mark (h : Abreast p E E') (r : Nat) (m : Milestone) : Abreast p (E.mark r m) (E'.mark r m) :=
  h.modifyRun r (fun _ _ => rfl) fun _ => rfl

theorem runAt (h : Abreast p E E') (r : Nat) : (E.outline p).runAt r = (E'.outline p).runAt r := by
  rw [h.outline]

/-- Of any run but the errand's own they have the same. -/
theorem runAt_ne (h : Abreast p E E') {r : Nat} (hr : p.run ≠ r) : E'.runAt r = E.runAt r := by
  have hx := h.runAt r
  rw [outline_runAt, outline_runAt, if_neg hr, if_neg hr] at hx
  exact hx.symm

theorem length (h : Abreast p E E') : E'.runs.length = E.runs.length :=
  h.see (·.runs.length) fun _ => List.length_modify _ _ _

theorem spawn (h : Abreast p E E') (n : Nat) (t : Trigger) (a : Admission) (c : Client) :
    Abreast p (E.spawn n t a c).1 (E'.spawn n t a c).1 := by
  have ho : ∀ E : Engine, p.run < E.runs.length →
      (E.spawn n t a c).1.outline p = ((E.outline p).spawn n t a c).1 := by
    intro E hr
    have hm : ∀ x : Run, (E.runs ++ [x]).modify p.run Run.anonymous
        = E.runs.modify p.run Run.anonymous ++ [x] := by
      intro x
      apply List.ext_getElem?
      intro m
      rw [List.getElem?_modify, List.getElem?_append, List.getElem?_append, List.length_modify,
        List.getElem?_modify]
      by_cases hm : m < E.runs.length
      · rw [if_pos hm, if_pos hm]
      · have hne : p.run ≠ m := by omega
        simp [hm, hne]
    unfold Engine.spawn Engine.outline
    rw [hm]
  have hc : ∀ E : Engine, E.Carries p → (E.spawn n t a c).1.Carries p := by
    intro E hE
    refine { hE with run := ?_, client := ?_ }
    · exact Nat.lt_of_lt_of_le hE.run (by simp [Engine.spawn])
    · have hx : (E.spawn n t a c).1.runAt p.run = E.runAt p.run := Core.getD_append _ hE.run
      rw [hx]
      exact hE.client
  refine ⟨by rw [ho E h.beside.left.run, ho E' h.beside.right.run, h.outline], ?_⟩
  exact { h.beside with left := hc E h.beside.left, right := hc E' h.beside.right }

theorem registry (h : Abreast p E E') : E.registry.Mirrors E'.registry :=
  ⟨congrArg Engine.registry h.outline, h.beside.host⟩

/-- An operation on the registry does the same to both. -/
theorem enrols {α : Type} {x x' : Registry × α} (h : Abreast p E E')
    (hx : Agrees Registry.Mirrors x x') : Agrees (Abreast p) (E.enrols x) (E'.enrols x') := by
  refine ⟨hx.answer, ?_, ?_⟩
  · show ({ E.outline p with registry := x.1.bare } : Engine)
      = { E'.outline p with registry := x'.1.bare }
    rw [hx.state.bare, h.outline]
  · exact
      { h.beside with
        host := hx.state.host
        left := { h.beside.left with }
        right := { h.beside.right with } }

theorem modifyInstance (h : Abreast p E E') (n : Nat) (f : Instance → Instance) :
    Abreast p (E.modifyInstance n f) (E'.modifyInstance n f) :=
  h.map (f := (·.modifyInstance n f)) (fun _ => rfl) fun _ => rfl

theorem ruleOf (h : Abreast p E E') (r : Nat) : E'.ruleOf r = E.ruleOf r :=
  h.see (·.ruleOf r) fun E => E.outline_ruleOf p r

theorem finishTask (h : Abreast p E E') (n : Nat) (x : TaskResult) :
    Abreast p (E.finishTask n x) (E'.finishTask n x) := by
  refine h.recast (f := (·.finishTask n x))
    (g := fun X => if n ≤ p.tasks then X.finishTask n x else X) (fun E => ?_) fun _ => rfl
  have hf : (E.finished ++ [(n, x)]).filter (fun x => x.1 ≤ p.tasks)
      = (E.outline p).finished ++ if n ≤ p.tasks then [(n, x)] else [] := by
    rw [List.filter_append]
    by_cases hn : n ≤ p.tasks <;> simp [hn, Engine.outline]
  show ({ E.outline p with
    finished := (E.finished ++ [(n, x)]).filter fun x => x.1 ≤ p.tasks } : Engine) = _
  rw [hf]
  split
  · rfl
  · rw [List.append_nil]

end Abreast

/-! ## Clients -/

theorem workerAt_setWorker_or (E : Engine) (c w : Nat) (s : WorkerState) (c' w' : Nat) :
    (E.setWorker c w s).workerAt c' w' = E.workerAt c' w' ∨
      c = c' ∧ w = w' ∧ (E.setWorker c w s).workerAt c' w' = s := by
  by_cases hw : w < (E.crewAt c).workers.length
  · rw [workerAt_setWorker hw]
    split
    · next h => exact .inr ⟨h.1, h.2, rfl⟩
    · exact .inl rfl
  · left
    unfold workerAt crewAt setWorker
    rcases Core.getD_modify_or E.crews c (fun x => { x with workers := x.workers.set w s })
      { workers := [], tick := none } c' with hc | ⟨rfl, hc⟩
    · exact congrArg (fun x : Crew => x.workers.getD w' .stopped) hc
    · refine (congrArg (fun x : Crew => x.workers.getD w' .stopped) hc).trans ?_
      exact congrArg (·.getD w' .stopped) (List.set_eq_of_length_le (Nat.le_of_not_lt hw))

theorem Carries.setWorker (h : E.Carries p) (c w : Nat) {s : WorkerState}
    (hs : p.owns (.worker c w) = true → s ≠ .stopped) : (E.setWorker c w s).Carries p where
  run := h.run
  client := h.client
  writes := h.writes
  write := h.write
  crew := (crewAt_setWorker E c w s p.crew).1.trans h.crew
  worker := by
    have hl : (E.setWorker c w s).crews.length = E.crews.length := List.length_modify _ _ _
    rw [hl]
    refine h.worker.imp_right fun hw => ?_
    rcases E.workerAt_setWorker_or c w s p.crew p.worker with he | ⟨hc, hw', he⟩ <;> rw [he]
    · exact hw
    · exact hs (by simp [Errand.owns, hc, hw'])
  guards := h.guards

/-- In the outline it does not matter where the errand's own worker is. -/
theorem outline_setWorker (E : Engine) (p : Errand) (c w : Nat) (s : WorkerState) :
    (E.setWorker c w s).outline p
      = if p.owns (.worker c w) then E.outline p else (E.outline p).setWorker c w s := by
  have hc : (E.setWorker c w s).crews.modify p.crew
        (fun x => { x with workers := x.workers.set p.worker .idle })
      = if p.owns (.worker c w) then (E.outline p).crews
        else ((E.outline p).setWorker c w s).crews := by
    unfold setWorker outline
    dsimp only
    by_cases hcc : c = p.crew
    · subst hcc
      rw [List.modify_modify_eq, List.modify_modify_eq]
      by_cases hw : w = p.worker
      · subst hw
        rw [if_pos (by simp [Errand.owns])]
        exact congrArg _ (funext fun x => by simp)
      · rw [if_neg (by simp [Errand.owns, hw])]
        exact congrArg _ (funext fun x => by simp [List.set_comm _ _ hw])
    · rw [if_neg (by simp [Errand.owns, hcc])]
      exact List.modify_modify_ne _ _ _ hcc
  show ({ E.outline p with crews := (E.setWorker c w s).crews.modify p.crew _ } : Engine) = _
  rw [hc]
  split <;> rfl

namespace SeesTo

theorem refl (p : Errand) (E : Engine) : SeesTo p E E := ⟨rfl, rfl, .inl rfl, rfl, rfl, id⟩

theorem trans (h : SeesTo p E F) (h' : SeesTo p F E'') : SeesTo p E E'' where
  outline := h'.outline.trans h.outline
  others := h'.others.trans h.others
  queue := by
    rcases h.queue, h'.queue with ⟨hq | ⟨hc, hq⟩, hq' | ⟨hc', hq'⟩⟩
    · exact .inl (hq'.trans hq)
    · exact .inr ⟨h.crews ▸ hc', hq ▸ hq'⟩
    · exact .inr ⟨hc, fun hE => hq' ▸ hq hE⟩
    · exact .inr ⟨hc, fun hE => hq' (hq hE)⟩
  host := h'.host.trans h.host
  crews := h'.crews.trans h.crews
  carries := h'.carries ∘ h.carries

theorem goOn (E : Engine) {j : Job} (hj : p.owns j = true) : SeesTo p E (E.goOn j) where
  outline := rfl
  others := (E.others_goOn p j).trans (if_pos hj)
  queue := .inl rfl
  host := rfl
  crews := rfl
  carries h := { h with }

theorem setWorker (E : Engine) {c w : Nat} (hw : p.owns (.worker c w) = true) {s : WorkerState}
    (hs : s ≠ .stopped) : SeesTo p E (E.setWorker c w s) where
  outline := (E.outline_setWorker p c w s).trans (if_pos hw)
  others := rfl
  queue := .inl rfl
  host := rfl
  crews := List.length_modify _ _ _
  carries h := h.setWorker c w fun _ => hs

theorem finishTask (E : Engine) {n : Nat} (hn : p.tasks < n) (x : TaskResult) :
    SeesTo p E (E.finishTask n x) where
  outline := by
    have hf : (E.finished ++ [(n, x)]).filter (fun x => x.1 ≤ p.tasks)
        = E.finished.filter fun x => x.1 ≤ p.tasks := by
      rw [List.filter_append]
      simp [hn]
    show ({ E.outline p with
      finished := (E.finished ++ [(n, x)]).filter fun x => x.1 ≤ p.tasks } : Engine) = _
    rw [hf]
    rfl
  others := rfl
  queue := .inl rfl
  host := rfl
  crews := rfl
  carries h := { h with }

/-- Whoever hears of the outcome of the errand's run belongs to the errand. -/
theorem answer (h : E.Carries p) (o : Outcome) : SeesTo p E (E.answer p.run o) := by
  have hr : SeesTo p E (E.modifyRun p.run fun x => { x with answered := true }) := by
    have hrim : (E.modifyRun p.run fun x => { x with answered := true }).rim = E.rim :=
      E.rim_modifyRun p.run fun _ => rfl
    refine ⟨?_, rfl, .inl rfl, rfl, rfl, fun h => h.congr hrim⟩
    show ({ E.outline p with
      runs := (E.runs.modify p.run fun x => { x with answered := true }).modify p.run
        Run.anonymous } : Engine) = _
    rw [List.modify_modify_eq]
    rfl
  have hc := (hr.carries h).client
  unfold Engine.answer
  split
  · exact refl p E
  · dsimp only
    cases hx : ((E.modifyRun p.run fun x => { x with answered := true }).runAt p.run).client with
    | task n =>
      rw [hx] at hc
      exact hr.trans (finishTask _ (of_decide_eq_true hc) _)
    | write k =>
      rw [hx] at hc
      exact hr.trans (goOn _ hc)
    | worker c w =>
      rw [hx] at hc
      exact (hr.trans (setWorker _ hc (by simp))).trans (goOn _ hc)
    | script e =>
      rw [hx] at hc
      cases hc

end SeesTo

namespace Abreast

theorem right (h : Abreast p E E') (hs : SeesTo p E' F) : Abreast p E F := (h.symm.left hs).symm

theorem setWorker (h : Abreast p E E') (c w : Nat) {s : WorkerState}
    (hs : p.owns (.worker c w) = true → s ≠ .stopped) :
    Abreast p (E.setWorker c w s) (E'.setWorker c w s) := by
  refine ⟨by rw [outline_setWorker, outline_setWorker, h.outline], ?_⟩
  exact
    { h.beside with
      queue := by
        have hl : ∀ E : Engine, (E.setWorker c w s).crews.length = E.crews.length :=
          fun _ => List.length_modify _ _ _
        rw [hl, hl]
        exact h.beside.queue
      left := h.beside.left.setWorker c w hs
      right := h.beside.right.setWorker c w hs }

theorem evaluationAt (h : Abreast p E E') (e : Nat) : E'.evaluationAt e = E.evaluationAt e :=
  h.see (·.evaluationAt e) fun _ => rfl

theorem reply (h : Abreast p E E') (e : Nat) (a : Script.Reply) :
    Abreast p (E.reply e a) (E'.reply e a) := by
  unfold Engine.reply
  rw [h.evaluationAt]
  split
  · exact (h.map (f := (·.setEvaluation e _)) (fun _ => rfl) fun _ => rfl).goOn _
  · exact h

theorem answer (h : Abreast p E E') (r : Nat) (o : Outcome) :
    Abreast p (E.answer r o) (E'.answer r o) := by
  by_cases hr : p.run = r
  · subst hr
    exact (h.left (.answer h.beside.left o)).right (.answer h.beside.right o)
  · have hm : Abreast p (E.modifyRun r fun x => { x with answered := true })
        (E'.modifyRun r fun x => { x with answered := true }) :=
      h.modifyRun r (fun he => absurd he.symm hr) fun _ => rfl
    unfold Engine.answer
    dsimp only
    rw [h.runAt_ne hr, hm.runAt_ne hr]
    split
    · exact h
    · split
      · exact hm.finishTask _ _
      · exact hm.goOn _
      · exact (hm.setWorker _ _ fun _ => by simp).goOn _
      · exact hm.reply _ _

end Abreast

/-- Listeners that are the same have the same manners. -/
theorem manners_of_eq {l l' : Listener} (h : l = l') : l'.name = l.name ∧ l'.role = l.role ∧
    (∀ t, l'.forbids t = l.forbids t) ∧
      l'.breaksOn .beforeEvaluate = l.breaksOn .beforeEvaluate := by
  subst h
  exact ⟨rfl, rfl, fun _ => rfl, rfl⟩

/-- **How the notification came in is of no account to a turn of a run or a step of a script.** -/
def abreast (p : Errand) : Likeness where
  rel := Abreast p
  kin := Eq
  face h := (h.see Engine.face (outline_face · p)).symm
  facts h r := by rw [h.ruleOf]
  listeners h := by
    rw [h.see Engine.listeners fun _ => rfl]
    exact List.forall₂_same.mpr fun _ _ => rfl
  audience {E E'} h r := by
    have ha : (E'.runAt r).audience = (E.runAt r).audience :=
      h.see (fun E => (E.runAt r).audience) fun E => by
        rw [outline_runAt]
        split <;> rfl
    rw [ha]
    exact List.forall₂_same.mpr fun _ _ => rfl
  manners h := manners_of_eq h
  adopt h G := h.map (f := (·.adopt G)) (fun _ => rfl) fun _ => rfl
  say h e := h.say e
  wake h j := h.wake j
  goOn h j := h.goOn j
  mark h r m := h.mark r m
  setStage h r s := h.modifyRun r (fun _ _ => rfl) fun _ => rfl
  setClaimed h r b := h.modifyRun r (fun _ _ => rfl) fun _ => rfl
  setAdmitted h r := h.modifyRun r (fun _ _ => rfl) fun _ => rfl
  spawn h n t a c := h.spawn n t a c
  opens {E E'} h r := by
    unfold opens
    rw [h.see Engine.now fun _ => rfl, h.see Engine.listeners fun _ => rfl]
    exact (h.modifyRun r (f := fun x => { x with started := E.now, audience := E.listeners })
      (fun _ _ => rfl) fun _ => rfl).mark r _
  heard h hl r s := by
    rw [← hl]
    exact h.mark r _
  breaks h hl s rule := by
    rw [← hl]
    split
    · exact h.say _
    · exact h
  answer h r o := h.answer r o
  modifyRule h n _ _ := h.modifyInstance n _
  recordFact h n node name value := h.modifyInstance n _
  mapSlot h n f := h.modifyInstance n _
  register h d := h.enrols (h.registry.register d)
  deregister h id := h.enrols (h.registry.deregister id)

theorem Abreast.like (h : Abreast p E E') : Like (abreast p) E E' := h

end Engine

end ReactiveRules
