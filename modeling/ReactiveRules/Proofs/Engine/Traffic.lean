import ReactiveRules.Proofs.Engine.Refusals
import ReactiveRules.Proofs.Engine.Writes
import ReactiveRules.Proofs.Graph.Calls
import ReactiveRules.Proofs.Likeness.Turns

/-!
# `Proofs/Engine/Traffic.lean` — an engine at its graph

The rules of an engine observe its graph, and whoever writes by way of the engine has them notified, one run
after another. **To its graph an engine is a `Traffic`** (`Engine.Steps.conducts`): rules that are registered,
removed or set to observe are moves of their observers, a write is a call, each turn of the write is one of the
call, and the runs on its behalf tell what the call has told.

So nothing but moves ever happens to the graph. For the turns this comes from an accord between the engine and
itself (`Engine.tying`).
-/

set_option autoImplicit false

namespace ReactiveRules

/-! ## Ties -/

/-- Observers have come and gone, and nothing has been written. -/
def Graph.Ties (g g' : Graph Unit) : Prop :=
  ∃ ms : List (GraphMove Unit), ∀ calls, ({ graph := g, calls } : Traffic Unit).after ms = ⟨g', calls⟩

namespace Graph.Ties

variable {g g' g'' : Graph Unit}

theorem refl (g : Graph Unit) : g.Ties g := ⟨[], fun _ => rfl⟩

theorem trans (h : g.Ties g') (h' : g'.Ties g'') : g.Ties g'' := by
  obtain ⟨ms, hms⟩ := h
  obtain ⟨ms', hms'⟩ := h'
  exact ⟨ms ++ ms', fun calls => by rw [Traffic.after_append, hms, hms']⟩

theorem attach (g : Graph Unit) (node : String) (a : Aspect) (o : Observer Unit) :
    g.Ties (g.attach node a o) := ⟨[.attach node a o], fun _ => rfl⟩

theorem detach (g : Graph Unit) (node key : String) : g.Ties (g.detach node key).1 :=
  ⟨[.detach node key], fun _ => rfl⟩

theorem detachAll (id : String) (nodes : List String) (g : Graph Unit) :
    g.Ties (Registry.detachAll g id nodes).1 := by
  induction nodes generalizing g with
  | nil => exact refl g
  | cons node rest ih => exact (detach g node id).trans (ih _)

end Graph.Ties

namespace Registry

/-- Observers have come and gone at the graph of a registry, if there is one. -/
def Tied (R R' : Registry) : Prop := Option.Rel Graph.Ties R.host R'.host

variable {R R' R'' : Registry}

theorem tied_of_host (h : R'.host = R.host) : R.Tied R' := by
  unfold Tied
  rw [h]
  cases R.host with
  | none => exact .none
  | some g => exact .some (.refl g)

theorem Tied.trans (h : R.Tied R') (h' : R'.Tied R'') : R.Tied R'' := by
  unfold Tied at *
  generalize R.host = a at h
  generalize R'.host = b at h h'
  generalize R''.host = c at h'
  cases h with
  | none =>
    cases h'
    exact .none
  | some h =>
    cases h' with
    | some h' => exact .some (h.trans h')

theorem tied_register (R : Registry) (d : Definition) : R.Tied (R.register d).1 :=
  tied_of_host (R.register_keeps d).1

theorem tied_deregister (R : Registry) (id : String) : R.Tied (R.deregister id).1 := by
  unfold deregister
  split
  · exact tied_of_host rfl
  · dsimp only
    split
    · exact tied_of_host rfl
    · next g hg =>
      unfold Tied
      have hR : R.host = some g := hg
      rw [hR]
      exact .some (.detachAll id _ g)

theorem tied_observe (R : Registry) (node id : String) : R.Tied (R.observe node id).1 := by
  unfold observe
  split
  · exact tied_of_host rfl
  · split
    · exact tied_of_host rfl
    · next g hg =>
      unfold Tied
      rw [hg]
      exact .some ((Graph.Ties.attach g node .attribute _).trans (.attach _ node .property _))

theorem host_sweep (R : Registry) (now : Nat) : (R.sweep now).host = R.host := by
  have hall : ∀ (xs : List (String × Nat)) (R : Registry),
      (xs.foldl (fun r x => r.modify x.2 (.mapRule (·.sweep now))) R).host = R.host := by
    intro xs
    induction xs with
    | nil => exact fun R => rfl
    | cons x rest ih => exact fun R => ih _
  exact hall R.registered R

end Registry

/-! ## What writes nothing -/

namespace Engine

variable {E E' : Engine}

theorem registry_wake (E : Engine) (j : Job) : (E.wake j).registry = E.registry := by
  unfold wake
  split <;> rfl

theorem registry_foldl_wake {α : Type} (f : α → Job) (xs : List α) (E : Engine) :
    (xs.foldl (fun E x => E.wake (f x)) E).registry = E.registry := by
  obtain ⟨ready, hwake⟩ := foldl_wake_eq f xs E
  rw [hwake]

theorem registry_dispatch (E : Engine) (t : Trigger) : (E.dispatch t).1.registry = E.registry := by
  unfold dispatch
  split
  · rfl
  · dsimp only
    split
    · rfl
    · exact registry_foldl_wake _ _ _

theorem registry_answer (E : Engine) (r : Nat) (o : Outcome) : (E.answer r o).registry = E.registry := by
  unfold answer
  split
  · rfl
  · dsimp only
    split
    · rfl
    · rfl
    · rfl
    · unfold reply
      split <;> rfl

theorem host_keepHouse (E : Engine) : E.keepHouse.registry.host = E.registry.host := by
  unfold keepHouse
  dsimp only
  split <;> exact E.registry.host_sweep E.now

theorem same_manners {l l' : Listener} (h : l = l') : l'.name = l.name ∧ l'.role = l.role ∧
    (∀ t, l'.forbids t = l.forbids t) ∧ l'.breaksOn .beforeEvaluate = l.breaksOn .beforeEvaluate := by
  subst h
  exact ⟨rfl, rfl, fun _ => rfl, rfl⟩

theorem tied_map {E₀ : Engine} (h : E = E' ∧ E₀.registry.Tied E.registry) {f : Engine → Engine}
    (hf : ∀ X : Engine, (f X).registry.host = X.registry.host) :
    f E = f E' ∧ E₀.registry.Tied (f E).registry := by
  obtain ⟨rfl, h⟩ := h
  exact ⟨rfl, h.trans (Registry.tied_of_host (hf E))⟩

/-- To be one engine, at whose graph observers have come and gone since: no turn can break this. -/
def tying (E₀ : Engine) : Accord where
  rel E E' := E = E' ∧ E₀.registry.Tied E.registry
  kin := Eq
  face h := congrArg face h.1
  facts := by
    rintro E _ ⟨rfl, -⟩ r
    rfl
  listeners := by
    rintro E _ ⟨rfl, -⟩
    exact List.forall₂_same.mpr fun _ _ => rfl
  audience := by
    rintro E _ ⟨rfl, -⟩ r
    exact List.forall₂_same.mpr fun _ _ => rfl
  manners := same_manners
  adopt h G := tied_map h (f := (·.adopt G)) fun _ => rfl
  say h e := tied_map h (f := (·.say e)) fun _ => rfl
  wake h j := tied_map h (f := (·.wake j)) fun X => congrArg Registry.host (registry_wake X j)
  goOn h j := tied_map h (f := (·.goOn j)) fun _ => rfl
  mark h r m := tied_map h (f := (·.mark r m)) fun _ => rfl
  setStage h r s := tied_map h (f := (·.setStage r s)) fun _ => rfl
  setClaimed h r b := tied_map h (f := (·.modifyRun r fun x => { x with claimed := b })) fun _ => rfl
  setAdmitted h r := tied_map h (f := (·.modifyRun r fun x => { x with admitted := true })) fun _ => rfl
  spawn h n t a c := tied_map h (f := (·.spawn n t a c |>.1)) fun _ => rfl
  opens h r := tied_map h (f := (·.opens r)) fun _ => rfl
  heard := by
    rintro E E' l _ h rfl r s
    exact tied_map h (f := (·.mark r (.heard l s))) fun _ => rfl
  breaks := by
    rintro E E' l _ h rfl s rule
    split
    · exact tied_map h (f := (·.notice (.listenerPanicked rule s.name))) fun _ => rfl
    · exact h
  answer h r o := tied_map h (f := (·.answer r o)) fun X => congrArg Registry.host (registry_answer X r o)
  modifyRule h n f _ := tied_map h (f := (·.modifyInstance n (.mapRule f))) fun _ => rfl
  recordFact := by
    rintro E _ ⟨rfl, h⟩ n node name value
    exact tied_map ⟨rfl, h⟩
      (f := (·.modifyInstance n (.mapRule (·.recordFact E.now node name value)))) fun _ => rfl
  mapSlot h n f := tied_map h (f := (·.modifyInstance n fun i => { i with slot := f i.slot })) fun _ => rfl
  register := by
    rintro E _ ⟨rfl, h⟩ d
    exact ⟨rfl, rfl, h.trans (E.registry.tied_register d)⟩
  deregister := by
    rintro E _ ⟨rfl, h⟩ id
    exact ⟨rfl, rfl, h.trans (E.registry.tied_deregister id)⟩
  apart _ := false
  ready h j _ := by rw [h.1]
  called h j _ := tied_map h (f := fun X => { X with ready := X.ready.erase j }) fun _ => rfl
  write h k _ := by rw [h.1]
  setWrite h k _ x := tied_map h (f := fun X => { X with writes := X.writes.set k x }) fun _ => rfl
  finishTask h n x := tied_map h (f := (·.finishTask n x)) fun _ => rfl
  worker h c w _ := by rw [h.1]
  setWorker h c w _ s := tied_map h (f := (·.setWorker c w s)) fun _ => rfl
  shutdown h c := by rw [h.1]
  woken h := by rw [h.1]
  take := by
    rintro E _ ⟨rfl, h⟩ w
    exact ⟨rfl, rfl, h⟩
  resume := by
    rintro E _ ⟨rfl, h⟩ w
    exact ⟨rfl, rfl, h⟩
  abort h w := tied_map h (f := fun X => { X with queue := X.queue.abort w }) fun _ => rfl
  stops h := by rw [h.1]
  setStop h k s := tied_map h (f := fun X => { X with stops := X.stops.set k s }) fun _ => rfl
  gone h c := by rw [h.1]
  crews h := by rw [h.1]
  tick h c := by rw [h.1]
  setTick h c t := tied_map h
    (f := fun X => { X with crews := X.crews.modify c fun x => { x with tick := t } }) fun _ => rfl
  setNow h t _ := tied_map h (f := fun X => { X with now := t }) fun _ => rfl
  keepHouse h := tied_map h (f := keepHouse) host_keepHouse

theorem tied_refl (E : Engine) : Like (tying E) E E := ⟨rfl, Registry.tied_of_host rfl⟩

/-- A turn writes nothing to the graph. -/
theorem tied_turn (E : Engine) (j : Job) (second : Bool) :
    E.registry.Tied (E.turn j second).registry := by
  have hkept : Like (tying E) (E.turn j second) (E.turn j second) := by
    refine Accord.turn E.tied_refl rfl second (fun r _ _ => .inl rfl) ?_
    rintro e - - t - commands x ⟨-, h⟩
    exact ⟨rfl, rfl, h.trans (Registry.tied_of_host (congrArg Registry.host (registry_dispatch _ t)))⟩
  exact hkept.2

theorem tied_strike {t : Nat} (ht : E.now ≤ t) : E.registry.Tied (E.strike t).registry :=
  (Accord.strike E.tied_refl ht).2

theorem registry_startWork (E : Engine) : E.startWork.1.registry = E.registry := by
  unfold startWork hire
  split
  · rfl
  · exact registry_foldl_wake _ _ _

theorem registry_stopWork (E : Engine) : E.stopWork.1.registry = E.registry := by
  unfold stopWork dismiss
  dsimp only
  split
  · rfl
  · exact (registry_wake _ _).trans (registry_foldl_wake _ _ _)

theorem host_unguard (E : Engine) (name : String) :
    (E.unguard name).1.registry.host = E.registry.host := by
  unfold unguard
  split
  · rfl
  · refine (congrArg Registry.host (registry_foldl_wake .run _ _)).trans ?_
    rfl

theorem host_guard (E : Engine) (n : Nat) (name : String) :
    (E.guard n name).1.registry.host = E.registry.host := by
  unfold guard
  split
  · rfl
  · exact host_unguard _ name

theorem host_abandonRunOf (E : Engine) (c : Client) :
    (E.abandonRunOf c).registry.host = E.registry.host := by
  unfold abandonRunOf
  split
  · rfl
  · unfold free
    dsimp only
    split
    · refine (congrArg Registry.host (registry_foldl_wake .run _ _)).trans ?_
      rfl
    · rfl

/-- No request writes to the graph but that to write. -/
theorem tied_serve (E : Engine) {q : Request} (hq : q.isWrite = false) :
    E.registry.Tied (E.serve q).registry := by
  have hlike : Like (tying E) E E := E.tied_refl
  cases q with
  | define d => exact (hlike.define d).state.2
  | deregister id => exact (hlike.deregister id).state.2
  | observe node id =>
    rw [serve, registry_observe]
    exact E.registry.tied_observe node id
  | setPaused id paused => exact (hlike.setPaused id paused).state.2
  | dispatch t => exact Registry.tied_of_host (congrArg Registry.host (E.registry_dispatch t))
  | sweep => exact Registry.tied_of_host (E.registry.host_sweep E.now)
  | notify n t a => exact Registry.tied_of_host (congrArg Registry.host (registry_wake _ _))
  | write a node name value => cases hq
  | abandon task => exact Registry.tied_of_host (E.host_abandonRunOf _)
  | abandonWrite k => cases hq
  | guard n name => exact Registry.tied_of_host (E.host_guard n name)
  | unguard name => exact Registry.tied_of_host (E.host_unguard name)
  | openGate gate => exact (hlike.openGate gate).2
  | start => exact Registry.tied_of_host (congrArg Registry.host E.registry_startWork)
  | stop => exact Registry.tied_of_host (congrArg Registry.host E.registry_stopWork)
  | _ => exact Registry.tied_of_host rfl

end Engine

/-! ## Calls -/

/-- What an observer is told, as the trigger of the rule that it stands for. -/
def Notification.trigger (n : Notification Unit) : Trigger :=
  ⟨n.observer.key, n.node, n.name, n.value, n.aspect⟩

/-- An engine's write is a call: it is about the same, and has the same observers still to notify. -/
structure GraphWrite.Makes (x : GraphWrite) (c : WriteCall Unit) : Prop where
  note : ∀ o, (c.note o).trigger = x.trigger o.key
  remaining : x.remaining = if c.givenUp then [] else c.remaining.map (·.key)

theorem forall₂_modify {α β : Type} {R : α → β → Prop} {f : α → α} {g : β → β} {xs : List α}
    {ys : List β} (h : List.Forall₂ R xs ys) (k : Nat)
    (hk : ∀ x y, xs[k]? = some x → ys[k]? = some y → R x y → R (f x) (g y)) :
    List.Forall₂ R (xs.modify k f) (ys.modify k g) := by
  induction h generalizing k with
  | nil => cases k <;> exact .nil
  | cons hxy hrest ih =>
    cases k with
    | zero => exact .cons (hk _ _ rfl rfl hxy) hrest
    | succ k => exact .cons hxy (ih k hk)

theorem forall₂_getElem? {α β : Type} {R : α → β → Prop} {xs : List α} {ys : List β}
    (h : List.Forall₂ R xs ys) {k : Nat} {x : α} (hx : xs[k]? = some x) :
    ∃ y, ys[k]? = some y ∧ R x y := by
  obtain ⟨hk, rfl⟩ := List.getElem?_eq_some_iff.mp hx
  have hk' : k < ys.length := h.length_eq ▸ hk
  exact ⟨ys[k], List.getElem?_eq_getElem hk', (List.forall₂_iff_get.mp h).2 k hk hk'⟩

namespace Engine

variable {E E' : Engine} {T : Traffic Unit}

/-- The graph of the engine is that of the traffic, its writes are the calls, and its runs tell what
the calls have told. -/
structure Conducts (E : Engine) (T : Traffic Unit) : Prop where
  host : E.registry.host = some T.graph
  writes : List.Forall₂ GraphWrite.Makes E.writes T.calls
  told : ∀ r k, (E.runAt r).client = .write k →
    ∃ c, T.calls[k]? = some c ∧ ∃ n ∈ c.told, n.trigger = (E.runAt r).trigger

theorem Conducts.congr (h : E.Conducts T) (hh : E'.registry.host = E.registry.host)
    (hw : E'.writes = E.writes) (hr : E'.runs = E.runs) : E'.Conducts T := by
  refine ⟨hh.trans h.host, hw ▸ h.writes, fun r k hk => ?_⟩
  have hrun : E'.runAt r = E.runAt r := by rw [runAt, runAt, hr]
  rw [hrun] at hk ⊢
  exact h.told r k hk

/-- What has been told stays so, whatever comes next. -/
theorem Conducts.told_play (h : E.Conducts T) (m : GraphMove Unit) {r k : Nat}
    (hk : (E.runAt r).client = .write k) :
    ∃ c, (T.play m).calls[k]? = some c ∧ ∃ n ∈ c.told, n.trigger = (E.runAt r).trigger := by
  obtain ⟨c, hc, n, hn, ht⟩ := h.told r k hk
  exact ⟨_, Traffic.calls_play hc, n, Traffic.told_heed k c m hn, ht⟩

/-- What is none of the writes' own leaves the calls as they are. -/
theorem Conducts.spares (h : E.Conducts T) (hr : E.registry.Tied E'.registry) (hs : E.Spares E')
    (ht : ∀ r k, (E.runAt r).client = .write k → (E'.runAt r).trigger = (E.runAt r).trigger) :
    ∃ ms, E'.Conducts (T.after ms) := by
  unfold Registry.Tied at hr
  rw [h.host] at hr
  generalize hhost : E'.registry.host = host at hr
  cases hr with
  | @some _ g' hties =>
    obtain ⟨ms, hms⟩ := hties
    have hafter : T.after ms = ⟨g', T.calls⟩ := hms T.calls
    refine ⟨ms, ?_⟩
    rw [hafter]
    refine ⟨hhost, ?_, fun r k hk => ?_⟩
    · rw [hs.writes]
      exact h.writes
    · have hold := hs.client r k hk
      rw [ht r k hold]
      exact h.told r k hold

/-- The turn of a write is a turn of its call. -/
theorem Conducts.performWrite (h : E.Conducts T) (k : Nat) :
    ∃ ms, (E.performWrite k).Conducts (T.after ms) := by
  unfold Engine.performWrite
  split
  · exact ⟨[], h⟩
  · next x hx =>
    split
    · exact ⟨[], h.host, h.writes, h.told⟩
    · next rule rest hrem =>
      obtain ⟨c, hc, hmakes⟩ := forall₂_getElem? h.writes hx
      -- there is somebody left to notify, so the call has not been given up
      have hkeys : rule :: rest = c.remaining.map (·.key) ∧ c.givenUp = false := by
        have hall := hmakes.remaining
        rw [hrem] at hall
        split at hall
        · cases hall
        · next hlive => exact ⟨hall, by simpa using hlive⟩
      obtain ⟨o, os, hos, rfl, rfl⟩ := List.map_eq_cons_iff.mp hkeys.1.symm
      have hturn : c.turn = { c with told := c.told ++ [c.note o], remaining := os } := by
        unfold WriteCall.turn
        rw [hkeys.2, hos]
        rfl
      have hcall : (T.play (.proceed k)).calls[k]? = some c.turn :=
        (Traffic.calls_play hc).trans (congrArg some (if_pos rfl))
      have hwrites : List.Forall₂ GraphWrite.Makes
          (E.writes.set k { x with remaining := os.map (·.key) }) (T.play (.proceed k)).calls := by
        rw [List.set_eq_modify]
        refine forall₂_modify h.writes k fun y d hy hd _ => ?_
        obtain rfl : c = d := Option.some.inj (hc.symm.trans hd)
        refine ⟨fun o' => (congrArg Notification.trigger (c.note_turn o')).trans (hmakes.note o'), ?_⟩
        rw [hturn, if_neg (by simp [hkeys.2])]
      have hproceeds : Conducts { E with writes := E.writes.set k { x with remaining := os.map (·.key) } }
          (T.play (.proceed k)) := ⟨h.host, hwrites, fun r m hm => h.told_play (.proceed k) hm⟩
      refine ⟨[.proceed k], ?_⟩
      dsimp only
      split
      · exact hproceeds.congr rfl rfl rfl
      · next n hn =>
        refine ⟨h.host, hwrites, fun r m hm => ?_⟩
        -- the run is one of those before, or has just been begun
        rcases Core.getD_concat_or E.runs (notification x k o.key n) default r with hold | ⟨-, hnew⟩
        · have hrun : ∀ X : Engine, X.runs = E.runs ++ [notification x k o.key n] →
              X.runAt r = E.runAt r := fun X hX => by rw [runAt, hX, hold]; rfl
          rw [hrun _ rfl] at hm ⊢
          exact h.told_play (.proceed k) hm
        · have hrun : ∀ X : Engine, X.runs = E.runs ++ [notification x k o.key n] →
              X.runAt r = notification x k o.key n := fun X hX => by rw [runAt, hX, hnew]
          rw [hrun _ rfl] at hm ⊢
          cases hm
          refine ⟨c.turn, hcall, c.note o, ?_, hmakes.note o⟩
          rw [hturn]
          exact List.mem_append_right _ List.mem_cons_self

/-- To write is to begin a call. -/
theorem Conducts.write (h : E.Conducts T) (a : Aspect) (node name : String) (value : Json) :
    (E.write a node name value).1.Conducts (T.play (.write node a name value)) := by
  unfold Engine.write
  simp only [show E.startTask.1.registry.host = some T.graph from h.host]
  have hconducts : Conducts
      { E.startTask.1 with
        registry := { E.startTask.1.registry with host := some (T.graph.write node a name value).1 }
        writes := E.writes ++ [{ node, name, value, aspect := a, task := E.startTask.2
                                 remaining := (T.graph.write node a name value).2.map (·.key) }] }
      (T.play (.write node a name value)) := by
    refine ⟨rfl, ?_, fun r k hk => h.told_play (.write node a name value) hk⟩
    exact List.rel_append h.writes (.cons ⟨fun _ => rfl, rfl⟩ .nil)
  exact hconducts.congr (congrArg Registry.host (registry_wake _ _)) (writes_wake _ _)
    (congrArg Core.runs (core_wake _ _))

/-- To abandon a write is to give up its call. -/
theorem Conducts.abandonWrite (h : E.Conducts T) (k : Nat)
    (ht : ∀ r m, (E.runAt r).client = .write m →
      ((E.abandonWrite k).runAt r).trigger = (E.runAt r).trigger) :
    ∃ ms, (E.abandonWrite k).Conducts (T.after ms) := by
  have hleft : Conducts { E with
      writes := E.writes.modify k fun x => { x with remaining := [] }
      ready := E.ready.erase (.write k) } (T.play (.giveUp k)) := by
    refine ⟨h.host, forall₂_modify h.writes k fun x c _ _ hm => ⟨hm.note, rfl⟩, fun r m hm => ?_⟩
    exact h.told_play (.giveUp k) hm
  obtain ⟨ms, hms⟩ := hleft.spares (Registry.tied_of_host (host_abandonRunOf _ _))
    (wakes_abandonRunOf _ (.write k)).toSpares ht
  exact ⟨.giveUp k :: ms, hms⟩

/-! ## Steps -/

/-- **Whatever an engine does, to its graph and its writes it is a traffic.** -/
theorem Step.conducts (hs : Step E E') (hv : E.core.Valid) (h : E.Conducts T) :
    ∃ ms, E'.Conducts (T.after ms) := by
  have ht : ∀ r k, (E.runAt r).client = .write k → (E'.runAt r).trigger = (E.runAt r).trigger :=
    fun r k hk => (((hs.core hv).follows hv).run r (lt_of_client hk)).trigger
  cases hs with
  | strike hlater => exact h.spares (tied_strike hlater) (E.wakes_strike _).toSpares ht
  | pass hlater => exact ⟨[], h.congr rfl rfl rfl⟩
  | turn j second =>
    cases hw : j.isWrite with
    | false => exact h.spares (E.tied_turn j second) (E.spares_turn hw second) ht
    | true =>
      cases j with
      | write k =>
        unfold Engine.turn
        split
        · have hnext : Conducts { E with ready := E.ready.erase (.write k) } T := h.congr rfl rfl rfl
          exact hnext.performWrite k
        · exact ⟨[], h⟩
      | _ => cases hw
  | @request q hq =>
    cases hw : q.isWrite with
    | false => exact h.spares (E.tied_serve hw) (E.wakes_serve hw).toSpares ht
    | true =>
      cases q with
      | write a node name value => exact ⟨[.write node a name value], h.write a node name value⟩
      | abandonWrite k => exact h.abandonWrite k ht
      | _ => cases hw

theorem Fresh.conducts (hf : E.Fresh) {g : Graph Unit} (hg : E.registry.host = some g) :
    E.Conducts { graph := g } := by
  obtain ⟨_, _, _, _, _, _, rfl⟩ := hf
  exact ⟨hg, .nil, fun r k hk => nomatch hk⟩

/-- **An engine with a graph is a traffic of that graph**: its writes are calls that tell their observers
one a turn, and its runs tell what the calls have told. -/
theorem Steps.conducts {E₀ : Engine} (hst : Steps E₀ E) (hf : E₀.Fresh) {g : Graph Unit}
    (hg : E₀.registry.host = some g) : ∃ ms, E.Conducts (({ graph := g } : Traffic Unit).after ms) := by
  induction hst with
  | refl => exact ⟨[], hf.conducts hg⟩
  | tail h₁ hs ih =>
    obtain ⟨ms, hms⟩ := ih
    obtain ⟨ms', hms'⟩ := hs.conducts (Reachable.valid ⟨E₀, hf, h₁⟩) hms
    exact ⟨ms ++ ms', by rwa [Traffic.after_append]⟩

end Engine

end ReactiveRules
