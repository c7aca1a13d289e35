import ReactiveRules.Proofs.Engine.Staff
import ReactiveRules.Proofs.Engine.Tidy
import ReactiveRules.Proofs.Rule.Mirrors

/-!
# `Proofs/Ways/Outline.lean` — engines but for how a notification came in

A notification comes to its rule directly, by a write to the graph or by a dispatch. An `Errand` is
what an engine has to do with the way alone: who hears of the outcome, and the write or the worker
that hands the notification over. The rest of the engine is its `outline`. Two engines are `Abreast`
if they have one outline and the same jobs are ready in both, the errand's own apart; what `SeesTo`
the errand alone keeps them so.
-/

set_option autoImplicit false

namespace ReactiveRules

/-- What has to do with the way of a notification alone. -/
structure Errand where
  /-- The number of its run. -/
  run : Nat
  /-- How many tasks there were before. -/
  tasks : Nat
  /-- How many writes there were before; the next one may be the errand's own. -/
  writes : Nat
  /-- The worker that may see to it. -/
  crew : Nat
  worker : Nat
  /-- The slots that are held by name all the while. -/
  guards : List (String × Nat)
  deriving DecidableEq

namespace Errand

/-- Is the job the errand's own? -/
def owns (p : Errand) : Job → Bool
  | .write k => k == p.writes
  | .worker c w => c == p.crew && w == p.worker
  | _ => false

/-- Can the errand be on behalf of the client? -/
def serves (p : Errand) : Client → Bool
  | .task n => p.tasks < n
  | .write k => k == p.writes
  | .worker c w => c == p.crew && w == p.worker
  | .script _ => false

end Errand

/-- The run apart from how it came in. -/
def Run.anonymous (x : Run) : Run :=
  { x with admission := .dropIfBusy, client := .task 0, answered := false }

@[simp] theorem Run.anonymous_default : (default : Run).anonymous = default := rfl

@[simp] theorem Run.anonymous_face (x : Run) : x.anonymous.face = x.face := rfl

/-- Nothing is in the queue, and nobody on the way to it. -/
structure DispatchQueue.IsQuiet {α ω : Type} (q : DispatchQueue α ω) : Prop where
  entries : q.entries = []
  woken : q.woken = []

namespace Engine

/-- The engine but for how a notification came in. -/
def outline (E : Engine) (p : Errand) : Engine :=
  { E with
    queue := { window := 0 }
    registry := E.registry.bare
    runs := E.runs.modify p.run Run.anonymous
    writes := E.writes.take p.writes
    crews := E.crews.modify p.crew fun x => { x with workers := x.workers.set p.worker .idle }
    ready := []
    tasks := 0
    finished := E.finished.filter fun x => x.1 ≤ p.tasks
    journal := E.journal.filter fun x => !x.2.isHousekeeping }

/-- What of the engine a way can have to do with. -/
def rim (E : Engine) : Engine :=
  { queue := E.queue, history := { capacity := 0 }, registry := { host := E.registry.host }
    writes := E.writes, crews := E.crews, guards := E.guards, ready := E.ready
    runs := E.runs.map fun x => { (default : Run) with client := x.client } }

/-- The jobs that are ready, the errand's own apart. -/
def others (E : Engine) (p : Errand) : List Job := E.ready.filter fun j => !p.owns j

/-- The errand is under way in the engine. -/
structure Carries (E : Engine) (p : Errand) : Prop where
  run : p.run < E.runs.length
  client : p.serves (E.runAt p.run).client = true
  /-- There is no later write, and the errand's own has nobody else to notify. -/
  writes : E.writes.length ≤ p.writes + 1
  write : ∀ x, E.writes[p.writes]? = some x → x.remaining = [] ∧ p.tasks < x.task
  /-- If there is such a worker, it is there to stay. -/
  crew : (E.crewAt p.crew).shutdown = false
  worker : E.crews.length ≤ p.crew ∨ E.workerAt p.crew p.worker ≠ .stopped
  guards : E.guards = p.guards

/-- Nothing but the way tells the two apart, as far as a way has to do with it. -/
structure Beside (p : Errand) (E E' : Engine) : Prop where
  others : (E.others p).Perm (E'.others p)
  /-- The queues are the same, or a worker has seen to the errand and nothing is in them. -/
  queue : E.crews.length ≤ p.crew ∧ E'.crews.length ≤ p.crew ∧ E'.queue = E.queue ∨
    E.queue.IsQuiet ∧ E'.queue.IsQuiet
  host : Option.Rel Graph.Mirrors E.registry.host E'.registry.host
  left : E.Carries p
  right : E'.Carries p

/-- The two engines are the same but for how the notification came in. -/
structure Abreast (p : Errand) (E E' : Engine) : Prop where
  outline : E.outline p = E'.outline p
  beside : Beside p E E'

/-- What is done has to do with the errand alone. -/
structure SeesTo (p : Errand) (E F : Engine) : Prop where
  outline : F.outline p = E.outline p
  others : F.others p = E.others p
  queue : F.queue = E.queue ∨ p.crew < E.crews.length ∧ (E.queue.IsQuiet → F.queue.IsQuiet)
  host : F.registry.host = E.registry.host
  crews : F.crews.length = E.crews.length
  carries : E.Carries p → F.Carries p

variable {p : Errand} {E E' E'' F : Engine}

/-! ## What can be seen of outlines -/

theorem outline_runAt (E : Engine) (p : Errand) (r : Nat) :
    (E.outline p).runAt r = if p.run = r then (E.runAt r).anonymous else E.runAt r := by
  unfold runAt outline
  simp only [List.getD_eq_getElem?_getD, List.getElem?_modify]
  by_cases hr : p.run = r <;> cases E.runs[r]? <;> simp [hr]

theorem outline_ruleOf (E : Engine) (p : Errand) (r : Nat) : (E.outline p).ruleOf r = E.ruleOf r := by
  unfold ruleOf
  rw [outline_runAt]
  split <;> rfl

theorem outline_face (E : Engine) (p : Errand) : (E.outline p).face = E.face := by
  have hr : (E.runs.modify p.run Run.anonymous).map Run.face = E.runs.map Run.face := by
    apply List.ext_getElem?
    intro m
    simp only [List.getElem?_map, List.getElem?_modify]
    by_cases hm : p.run = m <;> cases E.runs[m]? <;> simp [hm]
  show ({ E.face with runs := (E.runs.modify p.run Run.anonymous).map Run.face } : Engine) = E.face
  rw [hr]
  rfl

theorem outline_modifyRun (E : Engine) (p : Errand) (m : Nat) {f : Run → Run}
    (hf : m = p.run → ∀ x, (f x).anonymous = f x.anonymous) :
    (E.modifyRun m f).outline p = (E.outline p).modifyRun m f := by
  have hr : (E.runs.modify m f).modify p.run Run.anonymous
      = (E.runs.modify p.run Run.anonymous).modify m f := by
    by_cases hm : m = p.run
    · subst hm
      rw [List.modify_modify_eq, List.modify_modify_eq]
      exact congrArg _ (funext (hf rfl))
    · exact List.modify_modify_ne _ _ _ hm
  show ({ E.outline p with runs := (E.runs.modify m f).modify p.run Run.anonymous } : Engine) = _
  rw [hr]
  rfl

theorem rim_modifyRun (E : Engine) (m : Nat) {f : Run → Run} (hf : ∀ x, (f x).client = x.client) :
    (E.modifyRun m f).rim = E.rim := by
  have hr : (E.runs.modify m f).map (fun x => { (default : Run) with client := x.client })
      = E.runs.map fun x => { (default : Run) with client := x.client } := by
    apply List.ext_getElem?
    intro k
    simp only [List.getElem?_map, List.getElem?_modify]
    by_cases hm : m = k <;> cases E.runs[k]? <;> simp [hm, hf]
  show ({ E.rim with
    runs := (E.runs.modify m f).map fun x => { (default : Run) with client := x.client } } : Engine)
    = E.rim
  rw [hr]
  rfl

theorem rim_runAt (E : Engine) (r : Nat) :
    E.rim.runAt r = { (default : Run) with client := (E.runAt r).client } := by
  unfold runAt rim
  simp only [List.getD_eq_getElem?_getD, List.getElem?_map]
  cases E.runs[r]? <;> rfl

/-! ## Relations -/

/-- What is seen of rims is seen of both. -/
theorem see_rim {β : Type} (h : F.rim = E.rim) (f : Engine → β) (hf : ∀ E, f E.rim = f E) :
    f F = f E := by
  rw [← hf F, ← hf E, h]

theorem mirrors_refl (g : Option (Graph Unit)) : Option.Rel Graph.Mirrors g g := by
  cases g with
  | some g => exact .some fun _ _ => rfl
  | none => exact .none

theorem mirrors_symm {g g' : Option (Graph Unit)} (h : Option.Rel Graph.Mirrors g g') :
    Option.Rel Graph.Mirrors g' g := by
  cases h with
  | some hg => exact .some hg.symm
  | none => exact .none

theorem mirrors_trans {g g' g'' : Option (Graph Unit)} (h : Option.Rel Graph.Mirrors g g')
    (h' : Option.Rel Graph.Mirrors g' g'') : Option.Rel Graph.Mirrors g g'' := by
  cases h with
  | some hg =>
    cases h' with
    | some hg' => exact .some fun node a => (hg node a).trans (hg' node a)
  | none => exact h'

theorem length_rim (h : F.rim = E.rim) : F.runs.length = E.runs.length :=
  see_rim h (·.runs.length) fun _ => List.length_map _

theorem Carries.congr (h : E.Carries p) (hr : F.rim = E.rim) : F.Carries p where
  run := length_rim hr ▸ h.run
  client := by
    have hc : (F.runAt p.run).client = (E.runAt p.run).client :=
      see_rim hr (fun E => (E.runAt p.run).client) fun E => by rw [rim_runAt]
    exact hc ▸ h.client
  writes := see_rim hr Engine.writes (fun _ => rfl) ▸ h.writes
  write := see_rim hr Engine.writes (fun _ => rfl) ▸ h.write
  crew := see_rim hr (fun E => (E.crewAt p.crew).shutdown) (fun _ => rfl) ▸ h.crew
  worker := by
    have hl := see_rim hr (·.crews.length) fun _ => rfl
    have hw := see_rim hr (·.workerAt p.crew p.worker) fun _ => rfl
    rw [show F.crews.length = E.crews.length from hl,
      show F.workerAt p.crew p.worker = E.workerAt p.crew p.worker from hw]
    exact h.worker
  guards := see_rim hr Engine.guards (fun _ => rfl) ▸ h.guards

theorem Beside.congr {F' : Engine} (h : Beside p E E') (hr : F.rim = E.rim) (hr' : F'.rim = E'.rim) :
    Beside p F F' where
  others := see_rim hr (·.others p) (fun _ => rfl) ▸ see_rim hr' (·.others p) (fun _ => rfl) ▸ h.others
  queue := by
    have hq := see_rim hr (fun E => (E.crews.length, E.queue)) fun _ => rfl
    have hq' := see_rim hr' (fun E => (E.crews.length, E.queue)) fun _ => rfl
    rw [show F.crews.length = E.crews.length from congrArg Prod.fst hq,
      show F'.crews.length = E'.crews.length from congrArg Prod.fst hq',
      show F.queue = E.queue from congrArg Prod.snd hq,
      show F'.queue = E'.queue from congrArg Prod.snd hq']
    exact h.queue
  host := see_rim hr (·.registry.host) (fun _ => rfl) ▸
    see_rim hr' (·.registry.host) (fun _ => rfl) ▸ h.host
  left := h.left.congr hr
  right := h.right.congr hr'

namespace Abreast

theorem refl (h : E.Carries p) (hq : E.crews.length ≤ p.crew ∨ E.queue.IsQuiet) : Abreast p E E where
  outline := rfl
  beside :=
    { others := .refl _
      queue := hq.imp (fun hc => ⟨hc, hc, rfl⟩) fun hk => ⟨hk, hk⟩
      host := mirrors_refl _
      left := h
      right := h }

theorem symm (h : Abreast p E E') : Abreast p E' E where
  outline := h.outline.symm
  beside :=
    { others := h.beside.others.symm
      queue := h.beside.queue.imp (fun ⟨hc, hc', hq⟩ => ⟨hc', hc, hq.symm⟩) And.symm
      host := mirrors_symm h.beside.host
      left := h.beside.right
      right := h.beside.left }

theorem trans (h : Abreast p E E') (h' : Abreast p E' E'') : Abreast p E E'' where
  outline := h.outline.trans h'.outline
  beside :=
    { others := h.beside.others.trans h'.beside.others
      queue := by
        rcases h.beside.queue, h'.beside.queue with
          ⟨⟨hc, _, hq⟩ | ⟨hq, hq₁⟩, ⟨_, hc', hq'⟩ | ⟨hq₂, hq'⟩⟩
        · exact .inl ⟨hc, hc', hq'.trans hq⟩
        · exact .inr ⟨hq ▸ hq₂, hq'⟩
        · exact .inr ⟨hq, hq' ▸ hq₁⟩
        · exact .inr ⟨hq, hq'⟩
      host := mirrors_trans h.beside.host h'.beside.host
      left := h.beside.left
      right := h'.beside.right }

/-- What is seen of outlines is seen of both. -/
theorem see {β : Type} (h : Abreast p E E') (f : Engine → β) (hf : ∀ E, f (E.outline p) = f E) :
    f E' = f E := by
  rw [← hf E', ← hf E, h.outline]

/-- What can be done just as well to outlines, and leaves the rest alone, does the same to both. -/
theorem recast {f g : Engine → Engine} (h : Abreast p E E')
    (hf : ∀ E, (f E).outline p = g (E.outline p)) (hr : ∀ E, (f E).rim = E.rim) :
    Abreast p (f E) (f E') :=
  ⟨by rw [hf, hf, h.outline], h.beside.congr (hr E) (hr E')⟩

theorem map {f : Engine → Engine} (h : Abreast p E E')
    (hf : ∀ E, (f E).outline p = f (E.outline p)) (hr : ∀ E, (f E).rim = E.rim) :
    Abreast p (f E) (f E') := h.recast hf hr

/-- What has to do with the errand alone keeps the two abreast. -/
theorem left (h : Abreast p E E') (hs : SeesTo p E F) : Abreast p F E' where
  outline := hs.outline.trans h.outline
  beside :=
    { others := hs.others ▸ h.beside.others
      queue := by
        rw [hs.crews]
        rcases h.beside.queue, hs.queue with ⟨⟨hc, hc', hq⟩ | ⟨hq, hq'⟩, he | ⟨hlt, hk⟩⟩
        · exact .inl ⟨hc, hc', hq.trans he.symm⟩
        · omega
        · exact .inr ⟨he ▸ hq, hq'⟩
        · exact .inr ⟨hk hq, hq'⟩
      host := hs.host ▸ h.beside.host
      left := hs.carries h.beside.left
      right := h.beside.right }

end Abreast

/-! ## Whose turn it is -/

theorem mem_others {j : Job} : j ∈ E.others p ↔ j ∈ E.ready ∧ p.owns j = false := by
  simp [others]

theorem others_wake (E : Engine) (p : Errand) (j : Job) : (E.wake j).others p
    = if p.owns j = true ∨ j ∈ E.others p then E.others p else E.others p ++ [j] := by
  unfold wake
  split
  · next hj =>
    have hmem : j ∈ E.ready := List.contains_iff_mem.mp hj
    rw [if_pos]
    cases ho : p.owns j with
    | true => exact .inl rfl
    | false => exact .inr (mem_others.mpr ⟨hmem, ho⟩)
  · next hj =>
    have hnot : j ∉ E.ready := fun h => hj (List.contains_iff_mem.mpr h)
    have hfilter : ({ E with ready := E.ready ++ [j] } : Engine).others p
        = E.others p ++ if p.owns j then [] else [j] := by
      unfold others
      rw [List.filter_append]
      cases ho : p.owns j <;> simp [ho]
    rw [hfilter]
    cases ho : p.owns j with
    | true => simp
    | false =>
      have hno : ¬ (false = true ∨ j ∈ E.others p) := by simp [mem_others, hnot]
      rw [if_neg hno]
      rfl

theorem others_goOn (E : Engine) (p : Errand) (j : Job) : (E.goOn j).others p
    = if p.owns j = true then E.others p else j :: (E.others p).erase j := by
  have herase : (E.ready.erase j).filter (fun j => !p.owns j) = (E.others p).erase j :=
    List.erase_filter.symm
  show (j :: E.ready.erase j).filter (fun j => !p.owns j) = _
  rw [List.filter_cons, herase]
  cases ho : p.owns j with
  | true =>
    have hnot : j ∉ E.others p := by simp [mem_others, ho]
    rw [List.erase_of_not_mem hnot]
    rfl
  | false => rfl

/-- Whether a job that is not the errand's own goes on or is woken, the same are ready. -/
theorem others_perm (E : Engine) {j : Job} (hj : p.owns j = false) :
    ((E.wake j).others p).Perm ((E.goOn j).others p) := by
  rw [others_wake, others_goOn, hj]
  by_cases hmem : j ∈ E.others p
  · simpa [hmem] using List.perm_cons_erase hmem
  · rw [if_neg (by simpa using hmem), List.erase_of_not_mem hmem]
    exact List.perm_append_singleton j _

end Engine

end ReactiveRules
