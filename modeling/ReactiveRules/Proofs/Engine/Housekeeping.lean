import ReactiveRules.Proofs.Engine.Crews
import ReactiveRules.Proofs.Engine.Resemblance

/-!
# `Proofs/Engine/Housekeeping.lean` — housekeeping cannot be told from none

A course of an engine is what becomes of it by given moves, under a plan of when house is kept: at
which ticks of its crews, and when besides (`Engine.course`). What an engine does is its course
under the usual plan, `Plan.usual`. **Under any two plans, an engine answers every offer the same at
every point of its course, hands over the same triggers, and has the same outcomes, callbacks,
history, statistics and valid facts** (`housekeeping_invisible`); the same goes for a queue and for
a memory by themselves.
-/

set_option autoImplicit false

namespace ReactiveRules

namespace Engine

variable {E E' : Engine}

/-! ## What can be told -/

/-- The facts of an instance. -/
def factsAt (E : Engine) (n : Nat) : FactMemory := (E.registry.instances.getD n default).facts

/-- The engine without acceptances, facts, and notices of housekeeping. -/
def plain (E : Engine) : Engine :=
  { E with
    queue := { E.queue with accepted := [] }
    registry := { E.registry with
      instances := E.registry.instances.map (Instance.mapRule fun i => { i with facts := .empty }) }
    journal := E.journal.filter fun x => !x.2.isHousekeeping }

/-- The two engines differ at most in acceptances that suppress no offer, in facts that have
expired, and in notices of housekeeping. -/
structure Concurs (E E' : Engine) : Prop where
  /-- The next dispatch is answered the same, whatever it is of. -/
  offers : ∀ t, (E'.dispatch t).2 = (E.dispatch t).2
  /-- What workers take is told by the queue, the crews and the runs. -/
  deliveries : E'.queue.entries = E.queue.entries ∧ E'.crews = E.crews
  outcomes : E'.runs = E.runs ∧ E'.evaluations = E.evaluations ∧ E'.finished = E.finished
  callbacks : E'.bus = E.bus ∧
    (E'.journal.filter fun x => !x.2.isHousekeeping)
      = E.journal.filter fun x => !x.2.isHousekeeping
  history : E'.history = E.history
  statistics : ∀ id, E'.stats id = E.stats id
  facts : ∀ n t, E.now ≤ t → (E'.factsAt n).validFacts t = (E.factsAt n).validFacts t
  /-- Facts that have not expired are stored in both. -/
  stored : ∀ n t, E.now ≤ t → (E'.factsAt n).sweep t = (E.factsAt n).sweep t
  rest : E'.plain = E.plain

theorem plain_tidy (E : Engine) : E.tidy.plain = E.plain := by
  have hi : (E.registry.instances.map (·.tidy E.now)).map
      (Instance.mapRule fun i => { i with facts := .empty })
      = E.registry.instances.map (Instance.mapRule fun i => { i with facts := .empty }) := by
    rw [List.map_map]
    rfl
  have hj : (E.journal.filter fun x => !x.2.isHousekeeping).filter (fun x => !x.2.isHousekeeping)
      = E.journal.filter fun x => !x.2.isHousekeeping := by
    rw [List.filter_filter]
    simp only [Bool.and_self]
  unfold plain tidy Registry.tidy
  rw [hi, hj]
  rfl

theorem Resembles.factsAt (h : E.Resembles E') (n : Nat) {t : Nat} (ht : E.now ≤ t) :
    (E.factsAt n).sweep t = (E'.factsAt n).sweep t := by
  have hn : (E.registry.tidy E.now).instances.getD n default
      = (E'.registry.tidy E.now).instances.getD n default :=
    congrArg (·.instances.getD n default) h.registry
  rw [Registry.tidy_ruleAt, Registry.tidy_ruleAt] at hn
  exact FactMemory.sweep_later (congrArg (·.facts) hn) ht

theorem Resembles.concurs (h : E.Resembles E') (hd : E.queue.Distinct) (hd' : E'.queue.Distinct) :
    E.Concurs E' where
  offers := fun t => (h.dispatch hd hd' t).answer
  deliveries := ⟨h.see (·.queue.entries) fun _ => rfl, h.like.crews⟩
  outcomes := ⟨h.runs, h.like.evaluations, h.like.finished⟩
  callbacks := ⟨h.like.bus, (congrArg Engine.journal h).symm⟩
  history := h.like.history
  statistics := h.stats
  facts := fun n _ ht => FactMemory.validFacts_eq (h.factsAt n ht)
  stored := fun n _ ht => (h.factsAt n ht).symm
  rest := h.see (·.plain) plain_tidy

/-! ## Courses -/

/-- The tick of a crew, at which it keeps house or not. -/
def tickWith (keeps : Bool) (E : Engine) (c : Nat) : Engine :=
  if (E.crewAt c).tick == some E.now then
    let E := if keeps then E.keepHouse else E
    { E with
      crews := E.crews.modify c fun x =>
        { x with tick := some (E.now + E.settings.housekeepingInterval.toNat) } }
  else E

/-- It is `t` now, and crews keep house or not. -/
def strikeWith (keeps : Bool) (E : Engine) (t : Nat) : Engine :=
  let E := { E with now := t }
  let E := (List.range E.crews.length).foldl (tickWith keeps) E
  ((List.range E.runs.length).filter E.isDue).foldl (fun E r => E.wake (.run r)) E

theorem strikeWith_true (E : Engine) (t : Nat) : E.strikeWith true t = E.strike t := rfl

/-- What an engine can be made to do. -/
inductive Move where
  | turn (j : Job) (second : Bool)
  /-- A time comes at which something goes on by itself. -/
  | strike (ms : Nat)
  | pass (ms : Nat)
  | request (q : Request)

/-- The engine after a move, at which crews keep house or not. -/
def moved (E : Engine) (keeps : Bool) : Move → Engine
  | .turn j second => E.turn j second
  | .strike ms => E.strikeWith keeps (E.now + ms)
  | .pass ms => { E with now := E.now + ms }
  | .request q => E.serve q

/-- When house is kept in a course. -/
structure Plan where
  /-- Do crews that tick at a move keep house? -/
  ticks : Nat → Bool
  /-- Is house kept once more after a move? -/
  extra : Nat → Bool

/-- Crews keep house whenever they tick, and nobody else does. -/
def Plan.usual : Plan := ⟨fun _ => true, fun _ => false⟩

/-- The engine after the first moves. -/
def course (E : Engine) (p : Plan) (ms : Nat → Move) : Nat → Engine
  | 0 => E
  | k + 1 =>
    let E := (E.course p ms k).moved (p.ticks k) (ms k)
    if p.extra k then E.keepHouse else E

theorem Step.exists_move (h : Step E E') : ∃ m, E' = E.moved true m := by
  cases h with
  | turn j second => exact ⟨.turn j second, rfl⟩
  | @strike t ht =>
    exact ⟨.strike (t - E.now), by rw [moved, Nat.add_sub_cancel' ht, strikeWith_true]⟩
  | @pass t ht => exact ⟨.pass (t - E.now), by rw [moved, Nat.add_sub_cancel' ht]⟩
  | @request q hq => exact ⟨.request q, rfl⟩

/-- Whatever becomes of an engine is a course under the usual plan. -/
theorem Trail.exists_course {E : Nat → Engine} {last : Nat} (h : Trail E last) :
    ∃ ms, ∀ k ≤ last, E k = (E 0).course .usual ms k := by
  have hm : ∀ k, ∃ m, k < last → E (k + 1) = (E k).moved true m := by
    intro k
    by_cases hk : k < last
    · obtain ⟨m, hm⟩ := (h.step k hk).exists_move
      exact ⟨m, fun _ => hm⟩
    · exact ⟨.pass 0, fun hlt => absurd hlt hk⟩
  choose ms hms using hm
  refine ⟨ms, fun k hk => ?_⟩
  induction k with
  | zero => rfl
  | succ k ih =>
    rw [hms k hk, ih (Nat.le_of_succ_le hk)]
    rfl

/-! ### Queues remember no payload twice -/

theorem Labour.distinct (hl : E.Labour E') (h : E.queue.Distinct) : E'.queue.Distinct := by
  cases hl with
  | attends ha =>
    obtain ⟨a, hs, hq⟩ := ha.queue
    rw [hq]
    exact h.sublist hs
  | enters he =>
    rw [he.queue]
    exact h.accept _ _ _
  | works hw =>
    have hp : E'.queue.accepted = E.queue.accepted := by
      cases hw with
      | rests _ _ _ hp => exact hp.accepted
      | waits _ _ _ hp => exact hp.accepted
      | leaves _ _ _ _ hp => exact hp.accepted
      | hands _ hp => exact hp.accepted
    exact h.sublist (by rw [hp])
  | hires hh => exact hh.queue ▸ h
  | dismisses hd => exact hd.queue ▸ h
  | answers ha => exact ha.queue ▸ h

theorem minds_strikeWith (keeps : Bool) (E : Engine) (t : Nat) :
    E.Minds (E.strikeWith keeps t) := by
  have ht : E.Minds { E with now := t } := minds_aside ⟨rfl, rfl, rfl, rfl, rfl, rfl, fun _ _ => id⟩
  have htick : ∀ (E : Engine) (c : Nat), E.Minds (E.tickWith keeps c) := by
    intro E c
    unfold tickWith
    split
    · refine Minds.trans ?_ (minds_modifyCrew _ c fun _ => ⟨rfl, rfl⟩)
      cases keeps with
      | true => exact E.minds_keepHouse
      | false => exact .refl E
    · exact .refl E
  exact (ht.trans (minds_foldl htick _ _)).trans (minds_foldl (fun E r => E.minds_wake _) _ _)

theorem labour_moved (h : E.Staffed) (keeps : Bool) (m : Move) : E.Labour (E.moved keeps m) := by
  cases m with
  | turn j second => exact labour_turn h j second
  | strike ms => exact .attends (minds_strikeWith keeps E _ h.manned)
  | pass ms => exact labour_pass h.manned _
  | request q => exact labour_serve h.manned q

/-- What holds of every course. -/
theorem course_staffed (h : E.Staffed) (hd : E.queue.Distinct) (p : Plan) (ms : Nat → Move)
    (k : Nat) : (E.course p ms k).Staffed ∧ (E.course p ms k).queue.Distinct := by
  induction k with
  | zero => exact ⟨h, hd⟩
  | succ k ih =>
    have hm := labour_moved ih.1 (p.ticks k) (ms k)
    have hs := ih.1.labour hm
    unfold course
    dsimp only
    split
    · have hk : Labour _ (Engine.keepHouse _) := .attends (minds_keepHouse _ hs.manned)
      exact ⟨hs.labour hk, hk.distinct (hm.distinct ih.2)⟩
    · exact ⟨hs, hm.distinct ih.2⟩

/-! ### Any two plans -/

namespace Resembles

theorem keepHouse (h : E.Resembles E') (keeps keeps' : Bool) :
    (if keeps then E.keepHouse else E).Resembles (if keeps' then E'.keepHouse else E') := by
  have hone : ∀ (keeps : Bool) (E : Engine), (if keeps then E.keepHouse else E).Resembles E := by
    intro keeps E
    cases keeps with
    | true => exact E.keepHouse_resembles
    | false => exact .refl E
  exact ((hone keeps E).trans h).trans (hone keeps' E').symm

theorem tickWith (h : E.Resembles E') (keeps keeps' : Bool) (c : Nat) :
    (E.tickWith keeps c).Resembles (E'.tickWith keeps' c) := by
  have hk := h.keepHouse keeps keeps'
  unfold Engine.tickWith
  rw [h.like.crewAt, h.now]
  split
  · exact hk.map (f := fun E => { E with
      crews := E.crews.modify c fun x =>
        { x with tick := some (E.now + E.settings.housekeepingInterval.toNat) } }) fun _ => rfl
  · exact h

theorem strikeWith (h : E.Resembles E') (keeps keeps' : Bool) {t : Nat} (ht : E.now ≤ t) :
    (E.strikeWith keeps t).Resembles (E'.strikeWith keeps' t) := by
  have hn : Like housekept { E with now := t } { E' with now := t } := h.setNow ht
  have htick : ∀ {X X' : Engine} (c : Nat), Like housekept X X' →
      Like housekept (X.tickWith keeps c) (X'.tickWith keeps' c) :=
    fun c hX => Resembles.tickWith hX keeps keeps' c
  have hc := Like.foldl htick (List.range E.crews.length) hn
  have hl : E'.crews.length = E.crews.length := by rw [h.like.crews]
  unfold Engine.strikeWith
  dsimp only
  rw [hl]
  exact hc.wakeDue

theorem moved (h : E.Resembles E') (hd : E.queue.Distinct) (hd' : E'.queue.Distinct)
    (keeps keeps' : Bool) (m : Move) : (E.moved keeps m).Resembles (E'.moved keeps' m) := by
  cases m with
  | turn j second => exact h.turn hd hd' j second
  | strike ms =>
    unfold Engine.moved
    rw [h.now]
    exact h.strikeWith keeps keeps' (Nat.le_add_right _ _)
  | pass ms =>
    unfold Engine.moved
    dsimp only
    rw [h.now]
    exact h.setNow (Nat.le_add_right _ _)
  | request q => exact h.serve hd hd' q

end Resembles

theorem Fresh.distinct (h : E.Fresh) : E.queue.Distinct := by
  obtain ⟨_, _, _, _, _, _, rfl⟩ := h
  exact List.Pairwise.nil

theorem course_resembles (h : E.Staffed) (hd : E.queue.Distinct) (p p' : Plan) (ms : Nat → Move)
    (k : Nat) : (E.course p ms k).Resembles (E.course p' ms k) := by
  induction k with
  | zero => exact .refl E
  | succ k ih =>
    have hm := ih.moved (course_staffed h hd p ms k).2 (course_staffed h hd p' ms k).2 (p.ticks k)
      (p'.ticks k) (ms k)
    exact hm.keepHouse (p.extra k) (p'.extra k)

theorem course_concurs (h : E.Fresh) (p p' : Plan) (ms : Nat → Move) (k : Nat) :
    (E.course p ms k).Concurs (E.course p' ms k) :=
  (course_resembles h.staffed h.distinct p p' ms k).concurs
    (course_staffed h.staffed h.distinct p ms k).2 (course_staffed h.staffed h.distinct p' ms k).2

/-- **Housekeeping cannot be told from none.** Of an engine that is used in one way, whatever
becomes of it does so under any plan of keeping house, and that is all that can become of it; of a
queue or a memory that is used in one way, the same comes whether and whenever it is cleaned up. -/
theorem housekeeping_invisible :
    (∀ E : Engine, E.Fresh → ∀ (ms : Nat → Move) (p p' : Plan) (k : Nat),
      (E.course p ms k).Concurs (E.course p' ms k)) ∧
    (∀ (E : Nat → Engine) (last : Nat), Trail E last →
      ∃ ms, ∀ k ≤ last, E k = (E 0).course .usual ms k) ∧
    (∀ (α : Type) [BEq α] [PartialEquivBEq α] (window : Nat) (ms ms' : List (Station.Move α)),
      ms.filter Station.Move.serves = ms'.filter Station.Move.serves →
        ((Station.Ledger.ofWindow window).after ms).Concurs
          ((Station.Ledger.ofWindow window).after ms')) ∧
    ∀ ms ms' : List FactMemory.Move,
      ms.filter FactMemory.Move.matters = ms'.filter FactMemory.Move.matters →
        (FactMemory.Moment.after {} ms).validFacts = (FactMemory.Moment.after {} ms').validFacts :=
  ⟨fun _ h ms p p' k => course_concurs h p p' ms k, fun _ _ h => h.exists_course,
    fun _ _ _ window _ _ h => (Station.Ledger.resembles_after window h).concurs,
    fun _ _ h => FactMemory.Moment.validFacts_after h⟩

/-- A rule is defined and dispatched. -/
def dispatching : Nat → Move
  | 0 => .request (.define prompt)
  | 1 => .request (.dispatch change)
  | _ => .pass 10

/-- House is kept whenever something has been done. -/
def Plan.eager : Plan := ⟨fun _ => true, fun _ => true⟩

theorem trail_dispatching : Trail (blank.course .usual dispatching) 1 := by
  refine ⟨fresh_blank, fun k hk => ?_⟩
  obtain rfl : k = 0 := Nat.lt_one_iff.mp hk
  exact .request (q := .define prompt) trivial

/-- A dispatch is remembered under one plan and not under the other, an acceptance by a queue that
is cleaned up is forgotten, and a fact that is swept away is gone; nobody can tell. -/
theorem eager_concurs :
    ((blank.course .usual dispatching 3).Concurs (blank.course .eager dispatching 3) ∧
      (blank.course .usual dispatching 3).queue.tracked = 1 ∧
      (blank.course .eager dispatching 3).queue.tracked = 0) ∧
    (∃ ms, ∀ k ≤ 1, blank.course .usual dispatching k = blank.course .usual ms k) ∧
    ((Station.Ledger.ofWindow 5).after [.offer change 0, .advance 5, .cleanUp]).Concurs
      ((Station.Ledger.ofWindow 5).after [.offer change 0, .advance 5]) ∧
    (FactMemory.Moment.after {} [.record "n" ⟨"a", .null⟩ ⟨0, some 5⟩, .pass 5, .sweep]).validFacts
      = (FactMemory.Moment.after {} [.record "n" ⟨"a", .null⟩ ⟨0, some 5⟩, .pass 5]).validFacts :=
  ⟨⟨housekeeping_invisible.1 blank fresh_blank dispatching .usual .eager 3, by decide +kernel,
      by decide +kernel⟩,
    housekeeping_invisible.2.1 _ 1 trail_dispatching,
    housekeeping_invisible.2.2.1 Trigger 5 _ _ rfl,
    housekeeping_invisible.2.2.2 _ _ rfl⟩

end Engine

end ReactiveRules
