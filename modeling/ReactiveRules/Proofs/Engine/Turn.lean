import ReactiveRules.Proofs.Engine.Core

/-!
# `Proofs/Engine/Turn.lean` — what a turn of a run can do

The course of a run, told of scenes. Where an engine asks the evaluator, a scene only says that the
answer can be any; everything else is as the engine does it. **`Scene.Turn` lists the ways a turn
can go**, one constructor for each, with the conditions under which the engine takes it.

The one turn that is not here is that of a notification whose evaluation is put off, because it
reaches for the run that was put off before.
-/

set_option autoImplicit false

namespace ReactiveRules

/-! ## Listeners that are asked -/

namespace Listener

/-- The report of a listener, if it makes one. -/
def report? (s : RunSignal) (r : Nat) (l : Listener) : Option Report :=
  match l.role with
  | .reporter full => some ⟨l.name, full, s, r⟩
  | .publisher => none

/-- What a listener that is asked whether a run may take place says against it: that it may not, or
the message it breaks off with. -/
def objection? (t : Trigger) (l : Listener) : Option (Except String Bool) :=
  match l.role with
  | .publisher => none
  | .reporter _ =>
    if l.breaksOn .beforeEvaluate then some (.error (panicMessage .beforeEvaluate))
    else if l.forbids t then some (.ok false)
    else none

end Listener

/-- The listeners that get to be asked: all up to the first that objects. -/
def asked (t : Trigger) : List Listener → List Listener
  | [] => []
  | l :: rest => if (l.objection? t).isSome then [l] else l :: asked t rest

/-- What the listeners say together: what the first says that objects. -/
def verdict (t : Trigger) (ls : List Listener) : Except String Bool :=
  (ls.findSome? (·.objection? t)).getD (.ok true)

/-- An objection is never a plain yes. -/
theorem Listener.objection?_ne (t : Trigger) (l : Listener) : l.objection? t ≠ some (.ok true) := by
  unfold Listener.objection?
  split
  · simp
  · split
    · simp
    · split <;> simp

/-- If all together have nothing to say, nobody objects. -/
theorem objection?_of_verdict_true {t : Trigger} {ls : List Listener} (h : verdict t ls = .ok true) :
    ∀ l ∈ ls, l.objection? t = none := by
  induction ls with
  | nil => intro l hl; cases hl
  | cons l rest ih =>
    cases ho : l.objection? t with
    | some x =>
      have hx : x = .ok true := by simpa [verdict, ho] using h
      exact absurd (hx ▸ ho) (l.objection?_ne t)
    | none =>
      have hr : verdict t rest = .ok true := by simpa [verdict, ho] using h
      intro m hm
      rcases List.mem_cons.mp hm with rfl | hm
      · exact ho
      · exact ih hr m hm

/-- If nobody objects, all are asked. -/
theorem asked_of_verdict_true {t : Trigger} {ls : List Listener} (h : verdict t ls = .ok true) :
    asked t ls = ls := by
  have hno := objection?_of_verdict_true h
  -- nobody objecting passes to the rest of the list by itself, the verdict does not
  clear h
  induction ls with
  | nil => rfl
  | cons l rest ih =>
    have hl := hno l List.mem_cons_self
    have hr := ih fun m hm => hno m (List.mem_cons_of_mem _ hm)
    simp [asked, hl, hr]

/-- The first to object is asked last, and what it says counts. -/
theorem asked_of_objection {t : Trigger} {x : Except String Bool} :
    ∀ {ls : List Listener}, verdict t ls = x → x ≠ .ok true →
      ∃ pre l post, ls = pre ++ l :: post ∧ (∀ p ∈ pre, p.objection? t = none) ∧
        l.objection? t = some x ∧ asked t ls = pre ++ [l] := by
  intro ls
  induction ls with
  | nil => intro h hx; exact absurd h.symm hx
  | cons l rest ih =>
    intro h hx
    cases ho : l.objection? t with
    | none =>
      have hr : verdict t rest = x := by simpa [verdict, ho] using h
      obtain ⟨pre, l', post, rfl, hpre, hl', ha⟩ := ih hr hx
      refine ⟨l :: pre, l', post, rfl, ?_, hl', ?_⟩
      · intro p hp
        rcases List.mem_cons.mp hp with rfl | hp
        · exact ho
        · exact hpre p hp
      · simp [asked, ho, ha]
    | some y =>
      have hy : y = x := by simpa [verdict, ho] using h
      subst hy
      exact ⟨[], l, rest, rfl, by simp, ho, by simp [asked, ho]⟩

/-- A deferral that is over is taken down if it is the one that is put off. -/
theorem Rule.finishPending_eq (r : Rule) (g : Nat) :
    r.finishPending g = { r with pending := r.pending.filter (·.1 != g) } := by
  obtain ⟨_, _, _, _, _, _, pending, _, _, _, _⟩ := r
  cases pending with
  | none => rfl
  | some p =>
    by_cases hg : p.1 = g <;> simp [Rule.finishPending, Option.filter, hg]

/-- Does a run listen at the stage for the retirement of its instance? -/
def Stage.listens : Stage → Bool
  | .waiting | .delayed _ => true
  | _ => false

/-- Is the run put off and its deferral cancelled? -/
def Stage.isRevoked : Stage → Bool
  | .deferred _ _ c => c
  | _ => false

/-! ## Scenes

Each operation is a single change of the fields it touches, so that what it leaves alone is left
alone by computation. -/

namespace Scene

def mark (S : Scene) (m : Milestone) : Scene :=
  { S with run := { S.run with log := S.run.log ++ [m] } }

def setStage (S : Scene) (s : Stage) : Scene := { S with run := { S.run with stage := s } }

def mapRule (S : Scene) (f : Rule → Rule) : Scene := { S with rule := S.rule.mapRule f }

def mapSlot (S : Scene) (f : Slot Nat → Slot Nat) : Scene :=
  { S with rule := { S.rule with slot := f S.rule.slot } }

/-- Some listeners hear a signal. -/
def announce (S : Scene) (s : RunSignal) (ls : List Listener) : Scene :=
  { S with
    run := { S.run with log := S.run.log ++ ls.map (.heard · s) }
    reports := S.reports ++ ls.filterMap (·.report? s S.number) }

def tell (S : Scene) (s : RunSignal) : Scene := S.announce s S.run.audience

def record (S : Scene) (now : Nat) (condition executed : Bool) (error : Option RuleError) : Scene :=
  let entry := S.run.recordAt S.rule.definition now condition executed error
  { S.mark (.recorded entry) with history := S.history.push entry }

def hold (S : Scene) (slot : Slot Nat) : Scene :=
  { S with rule := { S.rule with slot }, run := { S.run with claimed := true } }

/-- The slot after the run has ended. -/
def freed (S : Scene) : Slot Nat := if S.run.claimed then S.rule.slot.release.1 else S.rule.slot

def finish (S : Scene) (o : Outcome) : Scene :=
  { S with
    run := { S.run with stage := .ended (.outcome o), claimed := false, answered := true }
    rule := { S.rule with slot := S.freed } }

@[simp] theorem announce_number (S : Scene) (s : RunSignal) (ls : List Listener) :
    (S.announce s ls).number = S.number := rfl

@[simp] theorem announce_trigger (S : Scene) (s : RunSignal) (ls : List Listener) :
    (S.announce s ls).run.trigger = S.run.trigger := rfl

@[simp] theorem announce_nil (S : Scene) (s : RunSignal) : S.announce s [] = S := by
  simp [announce]

/-- Announcing to one listener and then to others is announcing to all. -/
theorem announce_cons (S : Scene) (s : RunSignal) (l : Listener) (ls : List Listener) :
    (S.announce s [l]).announce s ls = S.announce s (l :: ls) := by
  have hf : (l :: ls).filterMap (·.report? s S.number)
      = [l].filterMap (·.report? s S.number) ++ ls.filterMap (·.report? s S.number) := by
    rw [← List.filterMap_append]
    rfl
  simp [announce, hf]

/-! ### Ways to end -/

/-- The run broke off before its action. -/
def breakOff (S : Scene) (now : Nat) (message : String) : Scene :=
  let e : RuleError := .panicked message
  (((S.mapRule Rule.markFailed).tell (.failure e)).record now false false (some e)).finish
    (.failed e)

/-- The rule after an attempt at its action. -/
def attempted (now : Nat) (success : Bool) (r : Rule) : Rule :=
  { r with facts := if r.definition.clearFacts then .empty else r.facts }.markCompleted now success

def conclude (S : Scene) (now : Nat) : Except RuleError Json → Scene
  | .ok v =>
    (((((S.mark .concluded).mapRule (attempted now true)).tell (.afterExecute v)).tell
      (.success true)).record now true true none).finish (.completed true true)
  | .error e =>
    ((((S.mark .concluded).mapRule (attempted now false)).tell (.failure e)).record now true true
      (some e)).finish (.failed e)

/-- The instance was retired while the action was put off. -/
def forgo (S : Scene) (now : Nat) : Scene :=
  let e : RuleError := .retired S.rule.id
  ((S.tell (.failure e)).record now true false (some e)).finish (.suppressed .retired)

/-- The rule rests by now, though the condition held. -/
def rest (S : Scene) (now : Nat) : Scene :=
  ((S.tell (.success true)).record now true false none).finish (.suppressed .refractory)

/-- The condition could not be judged. -/
def misjudge (S : Scene) (now : Nat) (e : ScriptError) : Scene :=
  (((S.tell (.evaluationError e)).tell (.success false)).record now false false
    (some (.script e))).finish (.completed false false)

def decline (S : Scene) (now : Nat) : Scene :=
  (((S.tell (.afterEvaluate false)).tell (.success false)).record now false false none).finish
    (.completed false false)

/-! ### Ways to go on -/

/-- The notification is admitted: its value is a fact from now on. -/
def accept (S : Scene) (now : Nat) : Scene :=
  let t := S.run.trigger
  { S with
    rule := S.rule.mapRule (·.recordFact now t.node t.name t.value)
    run := { S.run with admitted := true } }

/-- The evaluation of the run is put off, and its client hears of it. -/
def defer (S : Scene) (now : Nat) : Scene :=
  { S with
    rule := S.rule.mapRule (·.supersede S.number)
    run := { S.run with
      stage := .deferred (S.rule.generation + 1) (now + S.rule.definition.evaluationDelay) false
      answered := true } }

/-- The run starts, and the listeners are asked. -/
def begin (S : Scene) (now : Nat) (ls : List Listener) : Scene :=
  let S' : Scene := { S with
    run := { S.run with started := now, audience := ls, log := S.run.log ++ [.began] } }
  S'.announce .beforeEvaluate (asked S.run.trigger ls)

def judge (S : Scene) : Scene := (S.mark .judged).mapRule Rule.markEvaluated

/-! ### Turns

`now` is the time and `ls` the listeners there are. -/

/-- How an attempt at the action begins. A text that cannot be read ends it at once. -/
inductive Acts (now : Nat) (S : Scene) : Scene → Prop
  | unread (e : ScriptError) : Acts now S ((S.mark .attempted).conclude now (.error (.script e)))
  | acting (e : Nat) :
    Acts now S ((S.mark .attempted).setStage
      (.acting e (S.rule.definition.timeout.map (now + ·))))

/-- How a run goes on when its condition holds. -/
inductive Proceeds (now : Nat) (S : Scene) : Scene → Prop
  | rests (hr : S.rule.inRefractory now = true) : Proceeds now S (S.rest now)
  | delays (hr : S.rule.inRefractory now = false) (hd : S.rule.definition.executionDelay ≠ 0) :
    Proceeds now S ((S.tell .beforeExecute).setStage
      (.delayed (now + S.rule.definition.executionDelay)))
  | acts (hr : S.rule.inRefractory now = false) (hd : S.rule.definition.executionDelay = 0)
    {S' : Scene} (ha : Acts now (S.tell .beforeExecute) S') : Proceeds now S S'

/-- How a run goes on when its condition has been judged. -/
inductive Decides (now : Nat) (S : Scene) : Scene → Prop
  | misjudged (e : ScriptError) : Decides now S (S.misjudge now e)
  | declines : Decides now S (S.decline now)
  | proceeds {S' : Scene} (hp : Proceeds now (S.tell (.afterEvaluate true)) S') : Decides now S S'

/-- How a condition comes to be judged. A text that cannot be read is judged at once. -/
inductive Judges (now : Nat) (S : Scene) : Scene → Prop
  | unread (e : ScriptError) : Judges now S (S.judge.misjudge now e)
  | judging (e : Nat) : Judges now S (S.judge.setStage (.judging e))

/-- How a run starts that holds the slot. -/
inductive Starts (now : Nat) (ls : List Listener) (S : Scene) : Scene → Prop
  | rests (hr : S.rule.inRefractory now = true) :
    Starts now ls S (S.finish (.suppressed .refractory))
  | broke (hr : S.rule.inRefractory now = false) {m : String}
    (hv : verdict S.run.trigger ls = .error m) : Starts now ls S ((S.begin now ls).breakOff now m)
  | vetoed (hr : S.rule.inRefractory now = false) (hv : verdict S.run.trigger ls = .ok false) :
    Starts now ls S ((S.begin now ls).finish .vetoed)
  | judges (hr : S.rule.inRefractory now = false) (hv : verdict S.run.trigger ls = .ok true)
    {S' : Scene} (hj : Judges now (S.begin now ls) S') : Starts now ls S S'

/-- How a run claims the slot for the first time. -/
inductive Claims (now : Nat) (ls : List Listener) (S : Scene) : Scene → Prop
  | retired (h : S.rule.retired = true) : Claims now ls S (S.finish (.suppressed .retired))
  | starts (h : S.rule.retired = false) {slot : Slot Nat} (hs : S.rule.slot.claim? = some slot)
    {S' : Scene} (ha : Starts now ls (S.hold slot) S') : Claims now ls S S'
  | busy (h : S.rule.retired = false) (hs : S.rule.slot.claim? = none)
    (ha : S.run.admission = .dropIfBusy) : Claims now ls S (S.finish (.suppressed .busy))
  | waits (h : S.rule.retired = false) (hs : S.rule.slot.claim? = none)
    (ha : S.run.admission = .wait) : Claims now ls S ((S.mapSlot (·.enlist S.number)).setStage .waiting)

/-- A notification whose evaluation is put off: its conditions. -/
structure Defers (now : Nat) (S : Scene) : Prop where
  stage : S.run.stage = .arriving
  paused : S.rule.paused = false
  refractory : S.rule.inRefractory now = false
  delay : S.rule.definition.evaluationDelay ≠ 0

/-- What a turn of a run can do. -/
inductive Turn (now : Nat) (ls : List Listener) (S : Scene) : Scene → Prop
  | paused (hs : S.run.stage = .arriving) (hp : S.rule.paused = true) :
    Turn now ls S (S.finish (.suppressed .paused))
  | rests (hs : S.run.stage = .arriving) (hp : S.rule.paused = false)
    (hr : S.rule.inRefractory now = true) : Turn now ls S (S.finish (.suppressed .refractory))
  | arrives (hs : S.run.stage = .arriving) (hp : S.rule.paused = false)
    (hr : S.rule.inRefractory now = false) (hd : S.rule.definition.evaluationDelay = 0)
    {S' : Scene} (ha : Claims now ls (S.accept now) S') : Turn now ls S S'
  | fires {g due : Nat} {c : Bool} (hs : S.run.stage = .deferred g due c) (hd : due ≤ now)
    {S' : Scene} (ha : Claims now ls (S.mapRule (·.finishPending g)) S') : Turn now ls S S'
  | cancelled {g due : Nat} (hs : S.run.stage = .deferred g due true) :
    Turn now ls S (S.setStage (.ended .cancelled))
  | gains (hs : S.run.stage = .waiting) (hw : S.number ∉ S.rule.slot.waiting) {slot : Slot Nat}
    (hc : S.rule.slot.claim? = some slot) {S' : Scene} (ha : Starts now ls (S.hold slot) S') :
    Turn now ls S S'
  | leaves (hs : S.run.stage = .waiting) (hr : S.rule.retired = true) :
    Turn now ls S ((S.mapSlot (·.forget S.number)).finish (.suppressed .retired))
  | queues (hs : S.run.stage = .waiting) (hw : S.number ∉ S.rule.slot.waiting)
    (hc : S.rule.slot.claim? = none) (hr : S.rule.retired = false) :
    Turn now ls S (S.mapSlot (·.enlist S.number))
  | acts {due : Nat} (hs : S.run.stage = .delayed due) (hd : due ≤ now) {S' : Scene}
    (ha : Acts now S S') : Turn now ls S S'
  | forgoes {due : Nat} (hs : S.run.stage = .delayed due) (hr : S.rule.retired = true) :
    Turn now ls S (S.forgo now)
  | broke {e : Nat} (hs : S.run.stage = .judging e) (m : String) : Turn now ls S (S.breakOff now m)
  | decides {e : Nat} (hs : S.run.stage = .judging e) {S' : Scene} (ha : Decides now S S') :
    Turn now ls S S'
  | concludes {e : Nat} {d : Option Nat} (hs : S.run.stage = .acting e d)
    (result : Except RuleError Json) : Turn now ls S (S.conclude now result)

/-- The run has nothing to do in its turn: it has not been called away from where it listens, and its
deferral goes on. -/
structure Idle (now : Nat) (S : Scene) : Prop where
  listens : S.run.stage.listens = true → S.rule.retired = false
  deferred : ∀ g due c, S.run.stage = .deferred g due c → now < due ∧ c = false

/-- Where a run neither listens nor is put off, it can have nothing to do. -/
theorem Idle.of_stage {now : Nat} {S : Scene} {s : Stage} (hs : S.run.stage = s)
    (hl : s.listens = false) (hd : ∀ g due c, s ≠ .deferred g due c) : Idle now S where
  listens h := absurd (hl.symm.trans (hs ▸ h)) Bool.noConfusion
  deferred g due c h := absurd (hs.symm.trans h) (hd g due c)

end Scene

end ReactiveRules
