import ReactiveRules.Engine.Crew
import ReactiveRules.Engine.Rules
import ReactiveRules.Proofs.Rule.Roster

/-!
# `Proofs/Engine/Refusals.lean` — what is refused leaves no trace

Registering, removing, observing, pausing, dispatching, starting and stopping can be refused. `Refuses`
says what is refused in which state of affairs, and with which error: of several things that are wrong the
first one counts. **A petition is refused in exactly these cases, and a refused one changes nothing**
(`Engine.refused_changes_nothing`), on the engine as on the registry.

One who asks an engine to stop waits for it, so a refusal to stop is the result of a task; the task is all
that is left of it.
-/

set_option autoImplicit false

namespace ReactiveRules

/-! ## Definitions -/

namespace Definition

variable {d : Definition} {e : RuleError}

/-- What is wrong with a definition; of several things the first. -/
inductive Faulty (d : Definition) : RuleError → Prop
  | id (h : Text.isBlankText d.id = true) : Faulty d .emptyId
  | condition (hid : Text.isBlankText d.id = false) (h : Text.isBlankText d.condition = true) :
      Faulty d (.emptyCondition d.id)
  | timeout (hid : Text.isBlankText d.id = false) (hcond : Text.isBlankText d.condition = false)
      (h : d.timeout = some 0) : Faulty d (.zeroTimeout d.id)

theorem check_error_iff : d.check = .error e ↔ d.Faulty e := by
  unfold check
  constructor
  · intro h
    split at h
    · next hid => cases h; exact .id hid
    · next hid =>
      split at h
      · next hcond => cases h; exact .condition (Bool.not_eq_true _ ▸ hid) hcond
      · next hcond =>
        split at h
        · next ht =>
          cases h
          exact .timeout (Bool.not_eq_true _ ▸ hid) (Bool.not_eq_true _ ▸ hcond) (beq_iff_eq.mp ht)
        · cases h
  · rintro (h | ⟨hid, h⟩ | ⟨hid, hcond, h⟩)
    · simp [h]
    · simp [hid, h]
    · simp [hid, hcond, h]

end Definition

/-! ## Registries -/

/-- The error of an answer, if it is a refusal. -/
def refusalOf {α : Type} : Except RuleError α → Option RuleError
  | .error e => some e
  | .ok _ => none

@[simp] theorem refusalOf_eq_some {α : Type} {a : Except RuleError α} {e : RuleError} :
    refusalOf a = some e ↔ a = .error e := by
  cases a <;> simp [refusalOf]

namespace Registry

variable {r : Registry} {m : Move} {id : String} {e : RuleError}

/-- The refusal of a move; what others do to the graph is never refused. -/
def refusal? (r : Registry) : Move → Option RuleError
  | .register d => refusalOf (r.register d).2
  | .deregister id => refusalOf (r.deregister id).2
  | .observe node id => refusalOf (r.observe node id).2
  | _ => none

/-- What a registry refuses, and with which error. -/
inductive Refuses (r : Registry) : Move → RuleError → Prop
  | register {d : Definition} {e : RuleError} (h : d.Faulty e) : Refuses r (.register d) e
  | deregister {id : String} (h : r.contains id = false) :
      Refuses r (.deregister id) (.unknownRule id)
  | observe {node id : String} (h : r.contains id = false) :
      Refuses r (.observe node id) (.unknownRule id)
  | host {node id : String} (h : r.contains id = true) (hhost : r.host = none) :
      Refuses r (.observe node id) (.noHost node id)

theorem number?_eq_none_iff : r.number? id = none ↔ r.contains id = false := by
  unfold contains
  rw [Option.isSome_eq_false_iff, Option.isNone_iff_eq_none]

theorem find?_of_unknown (h : r.contains id = false) : r.find? id = none := by
  unfold find?
  rw [number?_eq_none_iff.mpr h]
  rfl

theorem register_error_iff {d : Definition} : (r.register d).2 = .error e ↔ d.Faulty e := by
  rw [← Definition.check_error_iff]
  unfold register
  cases d.check <;> simp

theorem deregister_error_iff :
    (r.deregister id).2 = .error e ↔ r.contains id = false ∧ e = .unknownRule id := by
  rw [← number?_eq_none_iff]
  unfold deregister
  cases r.number? id with
  | none => simp [eq_comm]
  | some n => dsimp only; split <;> simp

theorem observe_error_iff {node : String} : (r.observe node id).2 = .error e ↔
    r.contains id = false ∧ e = .unknownRule id ∨
      r.contains id = true ∧ r.host = none ∧ e = .noHost node id := by
  unfold observe
  cases hid : r.contains id with
  | false => simp [eq_comm]
  | true => cases hhost : r.host <;> simp [eq_comm]

theorem refusal?_iff : r.refusal? m = some e ↔ r.Refuses m e := by
  constructor
  · intro h
    cases m with
    | register d => exact .register (register_error_iff.mp (refusalOf_eq_some.mp h))
    | deregister id =>
      obtain ⟨hid, rfl⟩ := deregister_error_iff.mp (refusalOf_eq_some.mp h)
      exact .deregister hid
    | observe node id =>
      obtain ⟨hid, rfl⟩ | ⟨hid, hhost, rfl⟩ := observe_error_iff.mp (refusalOf_eq_some.mp h)
      · exact .observe hid
      · exact .host hid hhost
    | attach | detach | write => cases h
  · intro h
    refine Eq.trans ?_ rfl
    cases h with
    | register h => exact refusalOf_eq_some.mpr (register_error_iff.mpr h)
    | deregister h => exact refusalOf_eq_some.mpr (deregister_error_iff.mpr ⟨h, rfl⟩)
    | observe h => exact refusalOf_eq_some.mpr (observe_error_iff.mpr (.inl ⟨h, rfl⟩))
    | host h hhost => exact refusalOf_eq_some.mpr (observe_error_iff.mpr (.inr ⟨h, hhost, rfl⟩))

/-- A registry that refuses a move stays as it is. -/
theorem Refuses.play (h : r.Refuses m e) : r.play m = r := by
  cases h with
  | register h =>
    show (r.register _).1 = r
    rw [register_refused (Definition.check_error_iff.mpr h)]
  | deregister h => exact deregister_unknown h
  | observe h => exact observe_unknown h
  | host h hhost =>
    show (r.observe _ _).1 = r
    simp [Registry.observe, h, hhost]

end Registry

/-! ## Engines -/

namespace Engine

/-- What an engine can be asked for and may refuse. -/
inductive Petition where
  | define (d : Definition)
  /-- Registers a rule that is otherwise as in the settings. -/
  | register (id label condition action : String) (priority : Int32)
  | deregister (id : String)
  | observe (node id : String)
  | setPaused (id : String) (paused : Bool)
  | stats (id : String)
  | dispatch (t : Trigger)
  | start
  | stop

/-- The definition of a rule that is otherwise as in the settings. -/
def asInSettings (E : Engine) (id label condition action : String) (priority : Int32) : Definition :=
  { Definition.ofDefaults id label condition action E.settings.ruleDefaults with priority }

/-- What a petition asks of the registry. -/
def Petition.move? (E : Engine) : Petition → Option Registry.Move
  | .define d => some (.register d)
  | .register id label condition action priority =>
    some (.register (E.asInSettings id label condition action priority))
  | .deregister id => some (.deregister id)
  | .observe node id => some (.observe node id)
  | _ => none

/-- The refusal of a task among the results that have come since. -/
def refusedSince? (E E' : Engine) (task : Nat) : Option RuleError :=
  (E'.finished.drop E.finished.length).findSome? fun
    | (n, .refused e) => if n = task then some e else none
    | _ => none

/-- What a petition makes of the engine, and the refusal if there is one. -/
def petition (E : Engine) : Petition → Engine × Option RuleError
  | .define d => ((E.define d).1, refusalOf (E.define d).2)
  | .register id label condition action priority =>
    ((E.register id label condition action priority).1,
     refusalOf (E.register id label condition action priority).2)
  | .deregister id => ((E.deregister id).1, refusalOf (E.deregister id).2)
  | .observe node id => ((E.observe node id).1, refusalOf (E.observe node id).2)
  | .setPaused id paused => ((E.setPaused id paused).1, refusalOf (E.setPaused id paused).2)
  | .stats id => (E, refusalOf (E.stats id))
  | .dispatch t => ((E.dispatch t).1, refusalOf (E.dispatch t).2)
  | .start => (E.startWork.1, refusalOf E.startWork.2)
  | .stop => (E.stopWork.1, E.refusedSince? E.stopWork.1 E.stopWork.2)

/-- What an engine refuses, and with which error. -/
inductive Refuses (E : Engine) : Petition → RuleError → Prop
  | registry {p : Petition} {m : Registry.Move} {e : RuleError} (hp : p.move? E = some m)
      (h : E.registry.Refuses m e) : Refuses E p e
  | setPaused {id : String} {paused : Bool} (h : E.registry.contains id = false) :
      Refuses E (.setPaused id paused) (.unknownRule id)
  | stats {id : String} (h : E.registry.find? id = none) : Refuses E (.stats id) (.unknownRule id)
  | dispatch {t : Trigger} (h : E.registry.find? t.rule = none) :
      Refuses E (.dispatch t) (.unknownRule t.rule)
  | start {c : Nat} (h : E.running = some c) : Refuses E .start .alreadyRunning
  | stop (h : E.running = none) : Refuses E .stop .notRunning

variable {E : Engine} {p : Petition} {e : RuleError}

/-! ### The petitions one by one -/

theorem define_error_iff {d : Definition} :
    (E.define d).2 = .error e ↔ E.registry.Refuses (.register d) e := by
  rw [← Registry.refusal?_iff, Registry.refusal?, refusalOf_eq_some]
  unfold define
  match E.registry.register d with
  | (_, .error _) => simp
  | (_, .ok ⟨_, some _⟩) => simp
  | (_, .ok ⟨_, none⟩) => simp

theorem define_of_error {d : Definition} (h : (E.define d).2 = .error e) :
    (E.define d).1 = E := by
  unfold define at h ⊢
  match hr : E.registry.register d, h with
  | (_, .error _), _ => rfl
  | (_, .ok ⟨_, some _⟩), h => cases h
  | (_, .ok ⟨_, none⟩), h => cases h

theorem deregister_error_iff {id : String} :
    (E.deregister id).2 = .error e ↔ E.registry.Refuses (.deregister id) e := by
  rw [← Registry.refusal?_iff, Registry.refusal?, refusalOf_eq_some]
  unfold deregister
  match E.registry.deregister id with
  | (_, .error _) => simp
  | (_, .ok _) => simp

theorem deregister_of_error {id : String} (h : (E.deregister id).2 = .error e) :
    (E.deregister id).1 = E := by
  unfold deregister at h ⊢
  match hr : E.registry.deregister id, h with
  | (_, .error _), _ => rfl
  | (_, .ok _), h => cases h

theorem observe_error_iff {node id : String} :
    (E.observe node id).2 = .error e ↔ E.registry.Refuses (.observe node id) e := by
  rw [← Registry.refusal?_iff, Registry.refusal?, refusalOf_eq_some]
  unfold observe
  match E.registry.observe node id with
  | (_, .error _) => rfl
  | (_, .ok ()) => simp

theorem observe_of_error {node id : String} (h : (E.observe node id).2 = .error e) :
    (E.observe node id).1 = E := by
  unfold observe at h ⊢
  match hr : E.registry.observe node id, h with
  | (_, .error _), _ => rfl
  | (_, .ok ()), h => cases h

theorem setPaused_error_iff {id : String} {paused : Bool} : (E.setPaused id paused).2 = .error e ↔
    E.registry.contains id = false ∧ e = .unknownRule id := by
  rw [← Registry.number?_eq_none_iff]
  unfold setPaused
  cases E.registry.number? id <;> simp [eq_comm]

theorem setPaused_of_error {id : String} {paused : Bool} (h : (E.setPaused id paused).2 = .error e) :
    (E.setPaused id paused).1 = E := by
  have hnone := Registry.number?_eq_none_iff.mpr (setPaused_error_iff.mp h).1
  unfold setPaused
  rw [hnone]

theorem stats_error_iff {id : String} : E.stats id = .error e ↔
    E.registry.find? id = none ∧ e = .unknownRule id := by
  unfold stats
  cases E.registry.find? id <;> simp [eq_comm]

theorem dispatch_error_iff {t : Trigger} : (E.dispatch t).2 = .error e ↔
    E.registry.find? t.rule = none ∧ e = .unknownRule t.rule := by
  unfold dispatch
  cases E.registry.find? t.rule with
  | none => simp [eq_comm]
  | some i => dsimp only; split <;> simp

theorem dispatch_of_error {t : Trigger} (h : (E.dispatch t).2 = .error e) :
    (E.dispatch t).1 = E := by
  have hnone := (dispatch_error_iff.mp h).1
  unfold dispatch
  rw [hnone]

theorem startWork_error_iff : E.startWork.2 = .error e ↔
    (∃ c, E.running = some c) ∧ e = .alreadyRunning := by
  unfold startWork
  cases E.running <;> simp [eq_comm]

theorem startWork_of_error (h : E.startWork.2 = .error e) : E.startWork.1 = E := by
  obtain ⟨c, hc⟩ := (startWork_error_iff.mp h).1
  unfold startWork
  rw [hc]

/-- Waking makes ready, and nothing else. -/
theorem foldl_wake_eq {α : Type} (f : α → Job) (xs : List α) (E : Engine) :
    ∃ ready, xs.foldl (fun E x => E.wake (f x)) E = { E with ready } := by
  induction xs generalizing E with
  | nil => exact ⟨E.ready, rfl⟩
  | cons x rest ih =>
    obtain ⟨ready, h⟩ := ih (E.wake (f x))
    refine ⟨ready, h.trans ?_⟩
    unfold wake
    split <;> rfl

/-- Without a crew to dismiss the one who asks to stop is answered at once. -/
theorem stopWork_of_stopped (h : E.running = none) : E.stopWork =
    ({ E with tasks := E.tasks + 1, finished := E.finished ++ [(E.tasks + 1, .refused .notRunning)] },
     E.tasks + 1) := by
  simp [stopWork, startTask, finishTask, h]

theorem finished_stopWork {c : Nat} (h : E.running = some c) :
    E.stopWork.1.finished = E.finished := by
  have hwake : ∀ (ws : List Nat) (E : Engine),
      (ws.foldl (fun E w => E.wake (.worker c w)) E).finished = E.finished := fun ws E => by
    obtain ⟨ready, hwake⟩ := foldl_wake_eq (.worker c) ws E
    rw [hwake]
  have hstop : ∀ (E : Engine) (k : Nat), (E.wake (.stop k)).finished = E.finished := fun E k => by
    unfold wake
    split <;> rfl
  unfold stopWork startTask
  dsimp only
  rw [h]
  exact (hstop _ _).trans (hwake _ _)

theorem stop_refused_iff : E.refusedSince? E.stopWork.1 E.stopWork.2 = some e ↔
    E.running = none ∧ e = .notRunning := by
  unfold refusedSince?
  cases h : E.running with
  | none =>
    rw [stopWork_of_stopped h]
    simp [eq_comm]
  | some c => simp [finished_stopWork h]

/-! ### All petitions -/

theorem petition_refused_iff : (E.petition p).2 = some e ↔ E.Refuses p e := by
  constructor
  · intro h
    cases p with
    | define d => exact .registry rfl (define_error_iff.mp (refusalOf_eq_some.mp h))
    | register => exact .registry rfl (define_error_iff.mp (refusalOf_eq_some.mp h))
    | deregister id => exact .registry rfl (deregister_error_iff.mp (refusalOf_eq_some.mp h))
    | observe node id => exact .registry rfl (observe_error_iff.mp (refusalOf_eq_some.mp h))
    | setPaused id paused =>
      obtain ⟨hid, rfl⟩ := setPaused_error_iff.mp (refusalOf_eq_some.mp h)
      exact .setPaused hid
    | stats id =>
      obtain ⟨hid, rfl⟩ := stats_error_iff.mp (refusalOf_eq_some.mp h)
      exact .stats hid
    | dispatch t =>
      obtain ⟨ht, rfl⟩ := dispatch_error_iff.mp (refusalOf_eq_some.mp h)
      exact .dispatch ht
    | start =>
      obtain ⟨⟨c, hc⟩, rfl⟩ := startWork_error_iff.mp (refusalOf_eq_some.mp h)
      exact .start hc
    | stop =>
      obtain ⟨hrun, rfl⟩ := stop_refused_iff.mp h
      exact .stop hrun
  · intro h
    cases h with
    | registry hp h =>
      cases p <;> cases hp
      · exact refusalOf_eq_some.mpr (define_error_iff.mpr h)
      · exact refusalOf_eq_some.mpr (define_error_iff.mpr h)
      · exact refusalOf_eq_some.mpr (deregister_error_iff.mpr h)
      · exact refusalOf_eq_some.mpr (observe_error_iff.mpr h)
    | setPaused h => exact refusalOf_eq_some.mpr (setPaused_error_iff.mpr ⟨h, rfl⟩)
    | stats h => exact refusalOf_eq_some.mpr (stats_error_iff.mpr ⟨h, rfl⟩)
    | dispatch h => exact refusalOf_eq_some.mpr (dispatch_error_iff.mpr ⟨h, rfl⟩)
    | start h => exact refusalOf_eq_some.mpr (startWork_error_iff.mpr ⟨⟨_, h⟩, rfl⟩)
    | stop h => exact stop_refused_iff.mpr ⟨h, rfl⟩

/-- All that a refusal leaves is the task of one who asked to stop. -/
theorem petition_of_refused (h : (E.petition p).2 = some e) : ∃ tasks finished,
    (E.petition p).1 = { E with tasks, finished } ∧
      (p ≠ .stop → tasks = E.tasks ∧ finished = E.finished) := by
  have same {E' : Engine} (hsame : E' = E) : ∃ tasks finished, E' = { E with tasks, finished } ∧
      (p ≠ .stop → tasks = E.tasks ∧ finished = E.finished) :=
    ⟨E.tasks, E.finished, hsame, fun _ => ⟨rfl, rfl⟩⟩
  cases p with
  | define d => exact same (define_of_error (refusalOf_eq_some.mp h))
  | register => exact same (define_of_error (refusalOf_eq_some.mp h))
  | deregister id => exact same (deregister_of_error (refusalOf_eq_some.mp h))
  | observe node id => exact same (observe_of_error (refusalOf_eq_some.mp h))
  | setPaused id paused => exact same (setPaused_of_error (refusalOf_eq_some.mp h))
  | stats id => exact same rfl
  | dispatch t => exact same (dispatch_of_error (refusalOf_eq_some.mp h))
  | start => exact same (startWork_of_error (refusalOf_eq_some.mp h))
  | stop =>
    show ∃ tasks finished, E.stopWork.1 = _ ∧ _
    rw [stopWork_of_stopped (stop_refused_iff.mp h).1]
    exact ⟨_, _, rfl, fun hne => absurd rfl hne⟩

/-! ### The registry of an engine -/

theorem registry_cancelDeferral (E : Engine) (r : Nat) :
    (E.cancelDeferral r).registry = E.registry := by
  unfold cancelDeferral wake
  split
  · split <;> rfl
  · rfl

theorem registry_signalRetirement (E : Engine) (n : Nat) (pending : Option (Nat × Nat)) :
    (E.signalRetirement n pending).registry = E.registry := by
  obtain ⟨ready, hwake⟩ := foldl_wake_eq .run (E.listening n) E
  unfold signalRetirement
  rw [hwake]
  cases pending with
  | none => rfl
  | some p => exact registry_cancelDeferral _ _

theorem registry_define (E : Engine) (d : Definition) :
    (E.define d).1.registry = (E.registry.register d).1 := by
  cases ha : (E.registry.register d).2 with
  | error e =>
    have hr : E.registry.Refuses (.register d) e := .register (Registry.register_error_iff.mp ha)
    rw [define_of_error (define_error_iff.mpr hr)]
    exact hr.play.symm
  | ok placed =>
    unfold define
    rw [show E.registry.register d = ((E.registry.register d).1, .ok placed) from Prod.ext rfl ha]
    dsimp only
    split
    · exact registry_signalRetirement _ _ _
    · rfl

theorem registry_deregister (E : Engine) (id : String) :
    (E.deregister id).1.registry = (E.registry.deregister id).1 := by
  cases ha : (E.registry.deregister id).2 with
  | error e =>
    have hr : E.registry.Refuses (.deregister id) e :=
      Registry.refusal?_iff.mp (refusalOf_eq_some.mpr ha)
    rw [deregister_of_error (deregister_error_iff.mpr hr)]
    exact hr.play.symm
  | ok removed =>
    unfold deregister
    rw [show E.registry.deregister id = ((E.registry.deregister id).1, .ok removed) from
      Prod.ext rfl ha]
    exact registry_signalRetirement _ _ _

theorem registry_observe (E : Engine) (node id : String) :
    (E.observe node id).1.registry = (E.registry.observe node id).1 := by
  cases ha : (E.registry.observe node id).2 with
  | error e =>
    have hr : E.registry.Refuses (.observe node id) e :=
      Registry.refusal?_iff.mp (refusalOf_eq_some.mpr ha)
    rw [observe_of_error (observe_error_iff.mpr hr)]
    exact hr.play.symm
  | ok _ =>
    unfold observe
    rw [show E.registry.observe node id = ((E.registry.observe node id).1, .ok ()) from
      Prod.ext rfl ha]
    rfl

/-- An engine keeps what the registry has made of the petition, refused or not. -/
theorem registry_petition {m : Registry.Move} (h : p.move? E = some m) :
    (E.petition p).1.registry = E.registry.play m := by
  cases p <;> cases h
  · exact registry_define E _
  · exact registry_define E _
  · exact registry_deregister E _
  · exact registry_observe E _ _

/-- **A refusal leaves no trace.** An engine refuses a petition, with a certain error, exactly if there is
cause for it; a rule that is not registered is not found. After a refusal all of the engine is what it was:
its registry with all instances and whatever they remember, the nodes observed and the graph, the queue with
what it remembers, the workers and all that is going on. The same goes for a registry by itself, and an
engine keeps what its registry has made of a petition. -/
theorem refused_changes_nothing (E : Engine) (p : Petition) :
    (∀ e, (E.petition p).2 = some e ↔ E.Refuses p e) ∧
    (∀ id, E.registry.contains id = false → E.registry.find? id = none) ∧
    (∀ e, (E.petition p).2 = some e → ∃ tasks finished,
      (E.petition p).1 = { E with tasks, finished } ∧
        (p ≠ .stop → tasks = E.tasks ∧ finished = E.finished)) ∧
    (∀ (r : Registry) m e, (r.refusal? m = some e ↔ r.Refuses m e) ∧
      (r.refusal? m = some e → r.play m = r)) ∧
    ∀ m, p.move? E = some m → (E.petition p).1.registry = E.registry.play m :=
  ⟨fun _ => petition_refused_iff, fun _ => Registry.find?_of_unknown, fun _ => petition_of_refused,
    fun _ _ _ => ⟨Registry.refusal?_iff, fun h => (Registry.refusal?_iff.mp h).play⟩,
    fun _ => registry_petition⟩

/-- A rule is not replaced by one without a condition. -/
example :
    let E : Engine := { queue := { window := 1000 }, history := { capacity := 10 } }
    let E := (E.register "r1" "First" "true" "" 0).1
    let (E', refusal) := E.petition (.register "r1" "Second" "  " "" 0)
    refusal = some (.emptyCondition "r1") ∧ E'.registry.number? "r1" = some 0 ∧
      (E'.registry.find? "r1").map (·.definition.label) = some "First" :=
  ⟨rfl, rfl, rfl⟩

end Engine

end ReactiveRules
