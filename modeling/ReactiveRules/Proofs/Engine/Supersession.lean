import Mathlib.Tactic.IntervalCases
import ReactiveRules.Proofs.Engine.Awake
import ReactiveRules.Proofs.Engine.Deferral

/-!
# `Proofs/Engine/Supersession.lean` — what becomes of an evaluation that is put off

Time passes only when nobody can take a turn, and never past a time for which somebody waits
(`Engine.Timed`). So a run whose deferral is due takes its turn at that very time
(`Reachable.Punctual`), and one whose deferral is cancelled hears of it before any time has passed.

**An evaluation that is put off takes place once, when it is due, unless another notification of the
instance is admitted before, or the instance loses its id; then it never does**
(`Engine.Course.supersession`).
-/

set_option autoImplicit false

namespace ReactiveRules

namespace Engine

variable {E E' : Engine}

/-! ## Time -/

/-- One step of an engine where turns take no time. -/
inductive Timed (E : Engine) : Engine → Prop
  | turn (j : Job) (second : Bool) : Timed E (E.turn j second)
  | request {q : Request} (hq : E.Admits q) : Timed E (E.serve q)
  /-- The next time comes for which somebody waits, or one before. -/
  | strike {t : Nat} (hr : E.ready = []) (ht : E.now ≤ t)
    (hd : ∀ due ∈ E.dues, E.now < due → t ≤ due) : Timed E (E.strike t)
  | pass {t : Nat} (hr : E.ready = []) (ht : E.now ≤ t)
    (hd : ∀ due ∈ E.dues, E.now < due → t < due) : Timed E { E with now := t }

theorem Timed.step (h : E.Timed E') : Step E E' := by
  cases h with
  | turn j second => exact .turn j second
  | request hq => exact .request hq
  | strike hr ht hd => exact .strike ht
  | pass hr ht hd => exact .pass ht

/-! An engine lets time pass by such steps, as long as it comes to rest in between. -/

theorem timed_next (E : Engine) : E.Timed E.next := by
  unfold next
  split
  · next hr =>
    -- a turn of nobody's changes nothing
    have hsame : E.turn (.run 0) false = E := by
      unfold turn
      rw [hr]
      rfl
    have ht : E.Timed (E.turn (.run 0) false) := .turn _ _
    rwa [hsame] at ht
  · exact .turn _ _

theorem nextDue_eq_some {t due : Nat} (h : E.nextDue? t = some due) :
    t < due ∧ ∀ u ∈ E.dues, t < u → due ≤ u := by
  obtain ⟨hmem, hleast⟩ := List.min?_eq_some_iff.mp h
  refine ⟨by simpa using (List.mem_filter.mp hmem).2, fun u hu htu => hleast u ?_⟩
  exact List.mem_filter.mpr ⟨hu, by simpa using htu⟩

theorem timed_strike (hr : E.ready = []) {due : Nat} (h : E.nextDue? E.now = some due) :
    E.Timed (E.strike due) := by
  obtain ⟨hlt, hleast⟩ := nextDue_eq_some h
  exact .strike hr (Nat.le_of_lt hlt) hleast

theorem timed_pass (hr : E.ready = []) {t : Nat} (ht : E.now ≤ t)
    (h : ∀ due, E.nextDue? E.now = some due → t < due) : E.Timed { E with now := t } := by
  refine .pass hr ht fun u hu hlt => ?_
  have hmem : u ∈ E.dues.filter (E.now < ·) := List.mem_filter.mpr ⟨hu, by simpa using hlt⟩
  cases hd : E.nextDue? E.now with
  | none =>
    rw [List.min?_eq_none_iff.mp hd] at hmem
    cases hmem
  | some due => exact Nat.lt_of_lt_of_le (h due hd) ((nextDue_eq_some hd).2 u hu hlt)

/-- Whoever has waited for the time can take a turn when it comes. -/
theorem ready_strike {t r : Nat} (hr : r < E.runs.length) (hd : (E.runAt r).due? = some t) :
    Job.run r ∈ (E.strike t).ready := by
  have hk := sweeps_foldl_tickCrew (List.range E.crews.length) { E with now := t }
  unfold strike
  dsimp only
  apply mem_foldl_wake
  rw [List.mem_filter, List.mem_range, isDue, runAt, hk.runs, hk.now]
  refine ⟨hr, ?_⟩
  rw [show ({ E with now := t } : Engine).runs.getD r default = E.runAt r from rfl, hd]
  exact decide_eq_true (Nat.le_refl t)

/-- Either no time passes, or nobody can take a turn and no run changes. -/
theorem Timed.now_or_runs (h : E.Timed E') (hv : E.core.Valid) :
    E'.now = E.now ∨ E.ready = [] ∧ E'.runs = E.runs := by
  cases h with
  | turn j second => exact .inl (now_turn E hv j second)
  | request hq => exact .inl (now_serve hv hq)
  | strike hr ht hd => exact .inr ⟨hr, runs_strike E _⟩
  | pass hr ht hd => exact .inr ⟨hr, rfl⟩

/-! ## Deferrals are punctual -/

/-- A deferral that goes on is not overdue; when its time has come, its run can take a turn. -/
def Punctual (E : Engine) : Prop :=
  ∀ r g due, (E.runAt r).stage = .deferred g due false →
    E.now ≤ due ∧ (E.now = due → Job.run r ∈ E.ready)

theorem lt_of_deferred {r g due : Nat} {c : Bool} (hs : (E.runAt r).stage = .deferred g due c) :
    r < E.runs.length := by
  apply lt_of_stage
  rw [hs]
  exact Stage.noConfusion

theorem mem_dues {r due : Nat} (hr : r < E.runs.length) (hd : (E.runAt r).due? = some due) :
    due ∈ E.dues := by
  have hx : E.runAt r = E.runs[r] := by simp [runAt, hr]
  rw [hx] at hd
  exact List.mem_append_left _ (List.mem_filterMap.mpr ⟨_, List.getElem_mem hr, hd⟩)

/-- A deferral that goes on stood there before, or has just begun and ends later. -/
theorem Reachable.deferred_before (hE : E.Reachable) (hs : Step E E') {r g due : Nat}
    (hd : (E'.runAt r).stage = .deferred g due false) :
    (E.runAt r).stage = .deferred g due false ∨ E.now < due := by
  obtain ⟨e, he⟩ := hE.enacts hs
  have hy : (E.core.agenda.after e).deferral r = some ⟨(E'.runAt r).rule, g, due, false⟩ :=
    he.agenda ▸ Run.deferral_of_stage hd
  rcases Agenda.deferral_before hy with hx | ⟨n, x, k, -, hx, -⟩ | ⟨n, t, rfl, hx⟩
  · exact .inl (Run.stage_of_deferral hx).2
  · exact Bool.noConfusion (congrArg Deferral.cancelled hx)
  · have hdue : due = t := congrArg Deferral.due hx
    rw [hdue]
    exact .inr he.allows.2

/-- A deferral that goes on is not due as long as nobody can take a turn. -/
theorem Punctual.lt (h : E.Punctual) (hr : E.ready = []) {r g due : Nat}
    (hs : (E.runAt r).stage = .deferred g due false) : E.now < due := by
  obtain ⟨hle, hready⟩ := h r g due hs
  refine Nat.lt_of_le_of_ne hle fun hnow => ?_
  have hmem := hready hnow
  rw [hr] at hmem
  cases hmem

theorem Punctual.timed (h : E.Punctual) (hE : E.Reachable) (ht : E.Timed E') : E'.Punctual := by
  have hv := hE.valid
  intro r g due hs
  cases ht with
  | turn j second =>
    rw [now_turn E hv]
    rcases hE.deferred_before (.turn j second) hs with hs₀ | hlater
    · obtain ⟨hle, hready⟩ := h r g due hs₀
      refine ⟨hle, fun hnow => ?_⟩
      -- if the turn were its own, the run would stand there no more
      by_cases hj : j = .run r
      · subst hj
        have hrank := rank_turn hv hs₀ (.inl (Nat.le_of_eq hnow.symm)) (hready hnow) second
        rw [hs] at hrank
        exact absurd hrank (Nat.not_succ_le_self 1)
      · exact ready_turn j second (hready hnow) hj
    · exact ⟨Nat.le_of_lt hlater, fun heq => absurd heq (Nat.ne_of_lt hlater)⟩
  | @request q hq =>
    have hnow : (E.serve q).now = E.now := now_serve hv hq
    rw [hnow]
    rcases hE.deferred_before (.request hq) hs with hs₀ | hlater
    · obtain ⟨hle, hready⟩ := h r g due hs₀
      exact ⟨hle, fun hdue => (rouses_serve E q).ready r (hready hdue)⟩
    · exact ⟨Nat.le_of_lt hlater, fun heq => absurd heq (Nat.ne_of_lt hlater)⟩
  | @strike t hr ht hd =>
    have hs₀ : (E.runAt r).stage = .deferred g due false := by
      rw [← hs, runAt, runAt, runs_strike]
    have hlt := lt_of_deferred hs₀
    have hdue : (E.runAt r).due? = some due := by rw [Run.due?, hs₀]
    rw [now_strike]
    refine ⟨hd due (mem_dues hlt hdue) (h.lt hr hs₀), ?_⟩
    rintro rfl
    exact ready_strike hlt hdue
  | @pass t hr ht hd =>
    have hdue : (E.runAt r).due? = some due := by
      rw [Run.due?, show (E.runAt r).stage = .deferred g due false from hs]
    have hbefore : t < due := hd due (mem_dues (lt_of_deferred (E := E) hs) hdue) (h.lt hr hs)
    exact ⟨Nat.le_of_lt hbefore, fun heq => absurd heq (Nat.ne_of_lt hbefore)⟩

/-! ## What happens to a deferral in a step -/

/-- The evaluation of the run is put off. -/
def IsPutOff (E : Engine) (r : Nat) : Prop := ∃ g due c, (E.runAt r).stage = .deferred g due c

/-- The evaluation that was put off takes place. -/
def Fires (E E' : Engine) (r : Nat) : Prop :=
  E.IsPutOff r ∧ ¬ E'.IsPutOff r ∧ (E'.runAt r).stage.isCancelled = false

/-- Another notification of the run's instance is admitted, or the instance loses its id. -/
def Disturbs (E E' : Engine) (r : Nat) : Prop :=
  (∃ m, m ≠ r ∧ (E.runAt m).rule = (E.runAt r).rule ∧ E.Accepts E' m) ∨
    E.core.Ousts E'.core (E.runAt r).rule

def deferral? (E : Engine) (r : Nat) : Option Deferral := (E.runAt r).deferral?

theorem isPutOff_iff {r : Nat} : E.IsPutOff r ↔ ∃ x, E.deferral? r = some x := by
  constructor
  · rintro ⟨g, due, c, hs⟩
    exact ⟨_, Run.deferral_of_stage hs⟩
  · rintro ⟨x, hx⟩
    exact ⟨_, _, _, (Run.stage_of_deferral hx).2⟩

/-- While a deferral goes on, an event that concerns its instance is a disturbance, and a disturbance is
such an event. -/
theorem disturbs_iff {e : Agenda.Event} (he : E.core.Enacts E'.core e) {r : Nat} {x : Deferral}
    (hx : E.deferral? r = some x) (hd : E.core.delayOf r ≠ 0) :
    E.Disturbs E' r ↔ e.Disturbs x.rule := by
  have hrule : (E.runAt r).rule = x.rule := (Run.stage_of_deferral hx).1
  constructor
  · rintro (⟨m, -, hm, hacc⟩ | ho)
    · have hdm : E.core.delayOf m ≠ 0 := by
        have hsame : (E.core.runAt m).rule = (E.core.runAt r).rule := hm
        rw [Core.delayOf, hsame]
        exact hd
      rw [he.accepts m hacc hdm]
      exact hm.trans hrule
    · rw [(he.ousts _).mp ho]
      exact hrule
  · intro hdis
    cases e with
    | putsOff m n due =>
      obtain ⟨-, hacc, -, hn, -⟩ := he.putsOff m n due rfl
      have hnx : n = x.rule := hdis
      refine .inl ⟨m, ?_, (hn.symm.trans hnx).trans hrule.symm, hacc⟩
      rintro rfl
      have hnone : E.deferral? m = none := he.allows.1
      rw [hx] at hnone
      cases hnone
    | drops n =>
      have hnx : n = x.rule := hdis
      refine .inr ((he.ousts _).mpr ?_)
      rw [hnx, hrule]
    | _ => exact absurd hdis id

/-- A deferral stays as it is or is cancelled by a disturbance. -/
theorem Reachable.deferral_step (hE : E.Reachable) (hs : Step E E') {r : Nat} {x y : Deferral}
    (hx : E.deferral? r = some x) (hd : E.core.delayOf r ≠ 0) (hy : E'.deferral? r = some y) :
    y = x ∧ (x.cancelled = false → ¬ E.Disturbs E' r) ∨ y = x.cancel ∧ E.Disturbs E' r := by
  obtain ⟨e, he⟩ := hE.enacts hs
  have hdef : E.core.agenda.deferral r = some x := hx
  have hafter : (E.core.agenda.after e).deferral r = some y := he.agenda ▸ hy
  rw [disturbs_iff he hx hd]
  by_cases hdis : e.Disturbs x.rule
  · rw [hE.agenda_sound.cancelled_of_disturbs hdef he.allows hdis] at hafter
    exact .inr ⟨(Option.some.inj hafter).symm, hdis⟩
  · refine .inl ⟨?_, fun _ => hdis⟩
    rcases Agenda.deferral_before hafter with hx' | ⟨n, x', g, hx', -, hp, hn⟩ | ⟨n, due, rfl, -⟩
    · exact Option.some.inj (hx'.symm.trans hdef)
    · obtain ⟨due, hlive⟩ := (hE.agenda_sound.pending n g r).mp hp
      have hrule : x.rule = n := congrArg Deferral.rule (Option.some.inj (hdef.symm.trans hlive))
      exact absurd (hrule ▸ hn) hdis
    · have hnone := he.allows.1
      rw [hdef] at hnone
      cases hnone

/-- A deferral ends by firing, or because it was cancelled. -/
theorem Reachable.fires_of_ends (hE : E.Reachable) (hs : Step E E') {r : Nat} {x : Deferral}
    (hx : E.deferral? r = some x) (hn : E'.deferral? r = none) : E.Fires E' r ∨ x.cancelled = true := by
  obtain ⟨e, he⟩ := hE.enacts hs
  have hdef : E.core.agenda.deferral r = some x := hx
  have hafter : (E.core.agenda.after e).deferral r = none := he.agenda ▸ hn
  rcases Agenda.ends_of_none hdef hafter with rfl | rfl
  · refine .inl ⟨isPutOff_iff.mpr ⟨x, hx⟩, ?_, he.fires r rfl⟩
    rw [isPutOff_iff, hn]
    rintro ⟨y, hy⟩
    cases hy
  · obtain ⟨x', hx', hc⟩ := he.allows
    rw [hdef] at hx'
    cases hx'
    exact .inr hc

/-- **A deferral that fires is due; its instance believes no more that it is put off, and the run claims
the slot.** -/
theorem Reachable.claims_of_fires (hE : E.Reachable) (hs : Step E E') {r : Nat}
    (hf : E.Fires E' r) : ∃ x S, E.deferral? r = some x ∧ x.due ≤ E.now ∧
      Scene.Claims E.now E.listeners ((E.core.scene r).mapRule (·.finishPending x.generation)) S ∧
      E'.core = E.core.put S := by
  obtain ⟨⟨g, due, c, hstage⟩, hnot, hcan⟩ := hf
  have hr := lt_of_deferred hstage
  cases (hs.core hE.valid).run hr with
  | same hx => exact absurd ⟨g, due, c, (congrArg Run.stage hx).trans hstage⟩ hnot
  | cancelled hx =>
    refine absurd ⟨g, due, true, (congrArg Run.stage hx).trans ?_⟩ hnot
    simp [Run.cancelDeferral, hstage]
  | @turned S ht hc =>
    have hnum : S.number = r := ht.follows.number
    have hrun : E'.runAt r = S.run := by
      rw [← core_runAt, hc, Core.runAt_put_self E.core hnum hr]
    have hst : (E.core.scene r).run.stage = .deferred g due c := hstage
    cases ht with
    | @fires g' due' c' hs' hd _ ha =>
      rw [hst] at hs'
      cases hs'
      exact ⟨_, S, Run.deferral_of_stage hstage, hd, ha, hc⟩
    | cancelled hs' =>
      rw [hrun] at hcan
      cases hcan
    | _ => rw [‹(E.core.scene r).run.stage = _›] at hst; cases hst
  | deferred hd hx =>
    have harr : (E.runAt r).stage = .arriving := hd.stage
    rw [hstage] at harr
    cases harr
  | abandoned ha hs' hx =>
    have hst : (E.core.runAt r).stage = .deferred g due c := hstage
    rw [hst] at hs'
    cases hs'

/-- While a deferral that was cancelled goes on no time passes, nor when it is cancelled. -/
theorem Timed.now_of_cancelled (h : E.Timed E') (hE : E.Reachable) {r : Nat} {y : Deferral}
    (hy : E'.deferral? r = some y) (hc : y.cancelled = true) : E'.now = E.now := by
  rcases h.now_or_runs hE.valid with hnow | ⟨hr, hruns⟩
  · exact hnow
  · -- if time passed, it would have been cancelled before, and its run would be ready
    have hsame : E'.deferral? r = E.deferral? r := by rw [deferral?, deferral?, runAt, runAt, hruns]
    rw [hy] at hsame
    have hrev : E.Revoked r := by
      rw [Revoked, (Run.stage_of_deferral hsame.symm).2]
      exact hc
    have hmem := hE.awake.revoked r hrev
    rw [hr] at hmem
    cases hmem

/-! ## Courses -/

/-- A course of an engine from one at which nothing has happened: the states after each step. -/
structure Course (E : Nat → Engine) (last : Nat) : Prop where
  fresh : (E 0).Fresh
  timed : ∀ k, k < last → (E k).Timed (E (k + 1))

namespace Course

variable {E : Nat → Engine} {last : Nat}

theorem trail (h : Course E last) : Trail E last := ⟨h.fresh, fun k hk => (h.timed k hk).step⟩

theorem steps (h : Course E last) {j k : Nat} (hjk : j ≤ k) (hk : k ≤ last) : Steps (E j) (E k) :=
  h.trail.steps hjk hk

theorem reachable (h : Course E last) {k : Nat} (hk : k ≤ last) : (E k).Reachable :=
  h.trail.reachable hk

theorem now_le (h : Course E last) {j k : Nat} (hjk : j ≤ k) (hk : k ≤ last) :
    (E j).now ≤ (E k).now :=
  (Steps.follows (h.steps hjk hk) (h.reachable (Nat.le_trans hjk hk))).now

theorem rank_le (h : Course E last) {j k : Nat} (hjk : j ≤ k) (hk : k ≤ last) (r : Nat) :
    ((E j).runAt r).stage.rank ≤ ((E k).runAt r).stage.rank :=
  (Steps.leadsTo (h.steps hjk hk) (h.reachable (Nat.le_trans hjk hk)) r).rank_le

theorem punctual (h : Course E last) {k : Nat} (hk : k ≤ last) : (E k).Punctual := by
  induction k with
  | zero =>
    obtain ⟨_, _, _, _, _, _, h₀⟩ := h.fresh
    intro r g due hs
    rw [h₀] at hs
    cases hs
  | succ k ih =>
    have hle := Nat.le_of_succ_le hk
    exact (ih hle).timed (h.reachable hle) (h.timed k hk)

/-- From the step `first` on, the evaluation of a run is put off: its deferral, and its rule puts
evaluations off. -/
structure Deferred (E : Nat → Engine) (last first r : Nat) (x : Deferral) : Prop where
  course : Course E last
  le : first ≤ last
  deferral : (E first).deferral? r = some x
  alive : x.cancelled = false
  delay : (E first).core.delayOf r ≠ 0

namespace Deferred

variable {first r : Nat} {x y : Deferral} {j k : Nat}

/-- The rule of a run stays the same. -/
theorem delay_ne (h : Deferred E last first r x) (hj : first ≤ k) (hk : k ≤ last) :
    (E k).core.delayOf r ≠ 0 := by
  have hE := h.course.reachable h.le
  have hf := Steps.follows (h.course.steps hj hk) hE
  have hr : r < (E first).core.runs.length := lt_of_deferred (Run.stage_of_deferral h.deferral).2
  have hrule := (hf.run r hr).rule
  have hdef := (hf.rule _ (hE.valid.run r hr)).definition
  rw [Core.delayOf, hrule, hdef]
  exact h.delay

/-- A deferral that is over does not begin again. -/
theorem some_before (h : Deferred E last first r x) (hj : first ≤ j) (hjk : j ≤ k) (hk : k ≤ last)
    (hy : (E k).deferral? r = some y) : ∃ z, (E j).deferral? r = some z := by
  rw [← isPutOff_iff]
  have hx := (Run.stage_of_deferral h.deferral).2
  have hlow := h.course.rank_le hj (Nat.le_trans hjk hk) r
  have hhigh := h.course.rank_le hjk hk r
  rw [hx] at hlow
  rw [(Run.stage_of_deferral hy).2] at hhigh
  revert hlow hhigh
  cases hs : ((E j).runAt r).stage with
  | deferred g due c => exact fun _ _ => ⟨g, due, c, hs⟩
  | _ => simp [Stage.rank]

/-- **Until it ends, the deferral is what it was, and nothing has disturbed it; or a disturbance has
cancelled it, and no time has passed since.** -/
theorem kept (h : Deferred E last first r x) (hj : first ≤ k) (hk : k ≤ last)
    (hy : (E k).deferral? r = some y) :
    y = x ∧ (∀ j, first ≤ j → j < k → ¬ (E j).Disturbs (E (j + 1)) r) ∨
      y = x.cancel ∧ ∃ j, first ≤ j ∧ j < k ∧ (E j).Disturbs (E (j + 1)) r ∧
        (E j).deferral? r = some x ∧ (E j).now = (E k).now := by
  induction hj generalizing y with
  | refl =>
    rw [h.deferral] at hy
    exact .inl ⟨(Option.some.inj hy).symm, fun j hj hlt => absurd hj (Nat.not_le.mpr hlt)⟩
  | @step k hj ih =>
    have hle := Nat.le_of_succ_le hk
    have hE := h.course.reachable hle
    have ht := h.course.timed k hk
    obtain ⟨z, hz⟩ := h.some_before hj (Nat.le_succ k) hk hy
    have hnow := ht.now_of_cancelled hE hy
    have hstep := hE.deferral_step ht.step hz (h.delay_ne hj hle) hy
    rcases ih hle hz with ⟨rfl, hquiet⟩ | ⟨rfl, m, hm, hmk, hdis, hmx, hmnow⟩
    · rcases hstep with ⟨rfl, hnot⟩ | ⟨rfl, hdis⟩
      · refine .inl ⟨rfl, fun j hj hlt => ?_⟩
        rcases Nat.lt_or_eq_of_le (Nat.le_of_lt_succ hlt) with hjk | rfl
        · exact hquiet j hj hjk
        · exact hnot h.alive
      · exact .inr ⟨rfl, k, hj, Nat.lt_succ_self k, hdis, hz, (hnow rfl).symm⟩
    · have hyx : y = x.cancel := by
        rcases hstep with ⟨hsame, -⟩ | ⟨hsame, -⟩
        · exact hsame
        · exact hsame
      exact .inr ⟨hyx, m, hm, Nat.lt_succ_of_lt hmk, hdis, hmx,
        hmnow.trans (hnow (congrArg Deferral.cancelled hyx)).symm⟩

/-- A deferral that goes on is not overdue. -/
theorem now_le_due (h : Deferred E last first r x) (hk : k ≤ last)
    (hx : (E k).deferral? r = some x) : (E k).now ≤ x.due := by
  have hs := (Run.stage_of_deferral hx).2
  rw [h.alive] at hs
  exact (h.course.punctual hk r _ _ hs).1

/-- It fires when it is due; what disturbs it before is just as late. -/
theorem now_of_fires (h : Deferred E last first r x) (hj : first ≤ k) (hk : k < last)
    (hf : (E k).Fires (E (k + 1)) r) : (E k).now = x.due ∧
      ∀ j, first ≤ j → j < k → (E j).Disturbs (E (j + 1)) r → (E j).now = x.due := by
  have hle := Nat.le_of_lt hk
  obtain ⟨y, S, hy, hdue, -⟩ := (h.course.reachable hle).claims_of_fires (h.course.timed k hk).step hf
  rcases h.kept hj hle hy with ⟨rfl, hquiet⟩ | ⟨rfl, m, hm, hmk, hdis, hmx, hmnow⟩
  · exact ⟨Nat.le_antisymm (h.now_le_due hle hy) hdue,
      fun j hj hjk hdis => absurd hdis (hquiet j hj hjk)⟩
  · -- the disturbance that has cancelled it was no earlier
    have hmle := Nat.le_trans (Nat.le_of_lt hmk) hle
    have hxm := h.now_le_due hmle hmx
    have hnow : (E k).now = x.due := Nat.le_antisymm (hmnow ▸ hxm) hdue
    refine ⟨hnow, fun j hj hjk hdis' => ?_⟩
    rcases h.kept hm hmle hmx with ⟨-, hquiet⟩ | ⟨hcan, -⟩
    · have hmj : m ≤ j := Nat.le_of_not_lt fun hjm => hquiet j hj hjm hdis'
      have hlow := h.course.now_le hmj (Nat.le_trans (Nat.le_of_lt hjk) hle)
      have hhigh := h.course.now_le (Nat.le_of_lt hjk) hle
      omega
    · have halive := h.alive
      rw [hcan] at halive
      cases halive

/-- **If nothing disturbs it, it fires.** -/
theorem fires_of_quiet (h : Deferred E last first r x) (hdue : x.due < (E last).now)
    (hq : ∀ j, first ≤ j → j < last → (E j).IsPutOff r → ¬ (E j).Disturbs (E (j + 1)) r) :
    ∃ k, first ≤ k ∧ k < last ∧ (E k).Fires (E (k + 1)) r := by
  -- as long as it has not fired, it goes on
  by_contra hnone
  have hgoes : ∀ k, first ≤ k → k ≤ last → (E k).deferral? r = some x := by
    intro k hj
    induction hj with
    | refl => exact fun _ => h.deferral
    | @step k hj ih =>
      intro hk
      have hle := Nat.le_of_succ_le hk
      have hx := ih hle
      have hE := h.course.reachable hle
      have hs := (h.course.timed k hk).step
      cases hy : (E (k + 1)).deferral? r with
      | none =>
        rcases hE.fires_of_ends hs hx hy with hf | hc
        · exact absurd ⟨k, hj, hk, hf⟩ hnone
        · exact absurd (hc.symm.trans h.alive) Bool.noConfusion
      | some y =>
        rcases hE.deferral_step hs hx (h.delay_ne hj hle) hy with ⟨rfl, -⟩ | ⟨-, hdis⟩
        · rfl
        · exact absurd hdis (hq k hj hk (isPutOff_iff.mpr ⟨x, hx⟩))
  have hlate := h.now_le_due (Nat.le_refl last) (hgoes last h.le (Nat.le_refl last))
  exact Nat.not_le.mpr hdue hlate

end Deferred

/-- What becomes of the evaluation of a run that is put off in the step `i` until a time. -/
structure Keeps (E : Nat → Engine) (last i r due : Nat) : Prop where
  stands : ∃ g, ((E (i + 1)).runAt r).stage = .deferred g due false
  /-- It takes place when it is due. -/
  punctual : ∀ k, k < last → (E k).Fires (E (k + 1)) r → i < k ∧ (E k).now = due
  once : ∀ k l, k < last → l < last → (E k).Fires (E (k + 1)) r → (E l).Fires (E (l + 1)) r → k = l
  /-- If something disturbs it before, it never takes place. -/
  superseded : ∀ j, i < j → j < last → (E j).Disturbs (E (j + 1)) r → (E j).now < due →
    ∀ k, k < last → ¬ (E k).Fires (E (k + 1)) r
  /-- If nothing disturbs it while it is put off, it takes place. -/
  fires : due < (E last).now →
    (∀ j, i < j → j < last → (E j).IsPutOff r → ¬ (E j).Disturbs (E (j + 1)) r) →
    ∃ k, k < last ∧ (E k).Fires (E (k + 1)) r

/-- A notification that is admitted, and whose rule puts evaluations off, is put off. -/
theorem deferred_of_accepts (h : Course E last) {i r : Nat} (hi : i < last)
    (ha : (E i).Accepts (E (i + 1)) r) (hd : (E i).core.delayOf r ≠ 0) :
    ((E i).runAt r).stage = .arriving ∧
      ∃ g, Deferred E last (i + 1) r
        ⟨((E i).runAt r).rule, g, (E i).now + (E i).core.delayOf r, false⟩ := by
  have hE := h.reachable (Nat.le_of_lt hi)
  have hs := (h.timed i hi).step
  obtain ⟨e, he⟩ := hE.enacts hs
  have hput := he.accepts r ha hd
  obtain ⟨hr, -, harr, -, -⟩ := he.putsOff _ _ _ hput
  refine ⟨harr, (E i).core.agenda.generation ((E i).runAt r).rule + 1, h, hi, ?_, rfl, ?_⟩
  · have hdef : (E (i + 1)).deferral? r = ((E i).core.agenda.after e).deferral r :=
      congrArg (Agenda.deferral · r) he.agenda
    rw [hdef, hput]
    exact if_pos rfl
  · have hf := (hs.core hE.valid).follows hE.valid
    have hrule := (hf.run r hr).rule
    have hdef := (hf.rule _ (hE.valid.run r hr)).definition
    rw [Core.delayOf, hrule, hdef]
    exact hd

theorem keeps (h : Course E last) {i r : Nat} (hi : i < last) (ha : (E i).Accepts (E (i + 1)) r)
    (hd : (E i).core.delayOf r ≠ 0) :
    Keeps E last i r ((E i).now + (E i).core.delayOf r) := by
  obtain ⟨harr, g, hdef⟩ := h.deferred_of_accepts hi ha hd
  -- before it was admitted, the run was not put off
  have hafter : ∀ k, k < last → (E k).Fires (E (k + 1)) r → i < k := by
    rintro k hk ⟨⟨g, due, c, hstage⟩, -⟩
    by_contra hki
    have hrank := h.rank_le (Nat.le_of_not_lt hki) (Nat.le_of_lt hi) r
    rw [hstage, harr] at hrank
    exact absurd hrank (Nat.not_succ_le_zero 0)
  have hends : ∀ k l, k < l → k < last → l < last → (E k).Fires (E (k + 1)) r →
      ¬ (E l).Fires (E (l + 1)) r := by
    rintro k l hkl hk hl hfk ⟨hput, -⟩
    obtain ⟨y, hy⟩ := isPutOff_iff.mp hput
    have hik : i + 1 ≤ k + 1 := Nat.succ_le_succ (Nat.le_of_lt (hafter k hk hfk))
    exact hfk.2.1 (isPutOff_iff.mpr (hdef.some_before hik hkl (Nat.le_of_lt hl) hy))
  refine ⟨⟨g, (Run.stage_of_deferral hdef.deferral).2⟩, ?_, ?_, ?_, ?_⟩
  · intro k hk hf
    have hik := hafter k hk hf
    exact ⟨hik, (hdef.now_of_fires hik hk hf).1⟩
  · intro k l hk hl hfk hfl
    rcases Nat.lt_trichotomy k l with hlt | heq | hgt
    · exact absurd hfl (hends k l hlt hk hl hfk)
    · exact heq
    · exact absurd hfk (hends l k hgt hl hk hfl)
  · intro j hij hj hdis hbefore k hk hf
    obtain ⟨hdue, hlate⟩ := hdef.now_of_fires (hafter k hk hf) hk hf
    rcases Nat.lt_or_ge j k with hjk | hkj
    · exact absurd (hlate j hij hjk hdis) (Nat.ne_of_lt hbefore)
    · have hle := h.now_le hkj (Nat.le_of_lt hj)
      rw [hdue] at hle
      exact absurd hle (Nat.not_le.mpr hbefore)
  · intro hpast hquiet
    obtain ⟨k, -, hk, hf⟩ := hdef.fires_of_quiet hpast hquiet
    exact ⟨k, hk, hf⟩

/-- Whatever is put off has been admitted before. -/
theorem accepts_of_isPutOff (h : Course E last) {k r : Nat} (hk : k ≤ last)
    (hput : (E k).IsPutOff r) :
    ∃ i, i < k ∧ (E i).Accepts (E (i + 1)) r ∧ (E i).core.delayOf r ≠ 0 := by
  induction k with
  | zero =>
    obtain ⟨_, _, _, _, _, _, h₀⟩ := h.fresh
    obtain ⟨g, due, c, hs⟩ := hput
    rw [h₀] at hs
    cases hs
  | succ k ih =>
    have hle := Nat.le_of_succ_le hk
    by_cases hbefore : (E k).IsPutOff r
    · obtain ⟨i, hi, hacc⟩ := ih hle hbefore
      exact ⟨i, Nat.lt_succ_of_lt hi, hacc⟩
    · obtain ⟨e, he⟩ := (h.reachable hle).enacts (h.timed k hk).step
      obtain ⟨y, hy⟩ := isPutOff_iff.mp hput
      have hafter : ((E k).core.agenda.after e).deferral r = some y := he.agenda ▸ hy
      rcases Agenda.deferral_before hafter with hx | ⟨_, x, _, hx, -⟩ | ⟨n, due, rfl, -⟩
      · exact absurd (isPutOff_iff.mpr ⟨y, hx⟩) hbefore
      · exact absurd (isPutOff_iff.mpr ⟨x, hx⟩) hbefore
      · obtain ⟨-, hacc, -, -, hd⟩ := he.putsOff r n due rfl
        exact ⟨k, Nat.lt_succ_self k, hacc, hd⟩

end Course

/-! ## Notifications that are not admitted -/

/-- The notification is dropped as it arrives: its rule is paused, or rests. -/
def Drops (E E' : Engine) (m : Nat) : Prop :=
  (E.runAt m).stage = .arriving ∧ (E'.runAt m).admitted = false ∧
    ((E'.runAt m).stage = .ended (.outcome (.suppressed .paused)) ∨
      (E'.runAt m).stage = .ended (.outcome (.suppressed .refractory)))

/-- The evaluation of a run of the instance `n` is put off, and has not been cancelled. -/
def Alive (E : Engine) (n r : Nat) : Prop :=
  (E.runAt r).rule = n ∧ ∃ g due, (E.runAt r).stage = .deferred g due false

theorem alive_iff {n r : Nat} :
    E.Alive n r ↔ ∃ g due, E.core.agenda.deferral r = some ⟨n, g, due, false⟩ := by
  constructor
  · rintro ⟨rfl, g, due, hs⟩
    exact ⟨g, due, Run.deferral_of_stage hs⟩
  · rintro ⟨g, due, hx⟩
    obtain ⟨hn, hs⟩ := Run.stage_of_deferral hx
    exact ⟨hn, g, due, hs⟩

/-- Only a turn of its own drops a notification. -/
theorem Reachable.turn_of_drops (hE : E.Reachable) (hs : Step E E') {m : Nat} (hd : E.Drops E' m) :
    m < E.core.runs.length ∧
      ∃ S, Scene.Turn E.now E.listeners (E.core.scene m) S ∧ E'.core = E.core.put S := by
  obtain ⟨harr, hadm, hend⟩ := hd
  have hne : (E'.runAt m).stage ≠ .arriving := by
    rcases hend with h | h <;> rw [h] <;> exact Stage.noConfusion
  by_cases hr : m < E.core.runs.length
  · refine ⟨hr, ?_⟩
    cases (hs.core hE.valid).run hr with
    | same hx => exact absurd ((congrArg Run.stage hx).trans harr) hne
    | cancelled hx =>
      refine absurd ((congrArg Run.stage hx).trans ?_) hne
      simp [Run.cancelDeferral, harr]
    | @turned S ht hc => exact ⟨S, ht, hc⟩
    | deferred hdef hx =>
      have hst : (E'.runAt m).admitted = true := congrArg Run.admitted hx
      rw [hadm] at hst
      cases hst
    | abandoned ha hs' hx =>
      have hst : (E'.runAt m).stage = .ended .abandoned := congrArg Run.stage hx
      rcases hend with h | h <;> rw [hst] at h <;> cases h
  · by_cases hl : m < E'.core.runs.length
    · obtain ⟨n, t, a, c, hx, -⟩ := (hs.core hE.valid).run_new (Nat.le_of_not_lt hr) hl
      exact absurd (congrArg Run.stage hx) hne
    · exact absurd (congrArg Run.stage (Core.runAt_of_le (Nat.le_of_not_lt hl))) hne

/-- A notification that arrives and is not put off leaves what its instance has put off. -/
theorem pending_of_arriving {now : Nat} {ls : List Listener} {S S' : Scene}
    (h : Scene.Turn now ls S S') (hs : S.run.stage = .arriving) : S'.rule.pending = S.rule.pending := by
  cases h with
  | paused _ hp => rfl
  | rests _ hp hr => rfl
  | arrives _ hp hr hd ha => exact ha.calm.pending
  | _ => rw [‹S.run.stage = _›] at hs; cases hs

/-- **A notification that is dropped leaves alone what has been put off.** -/
theorem Reachable.drops (hE : E.Reachable) (hs : Step E E') {m : Nat} (hd : E.Drops E' m) :
    (∀ r, r ≠ m → E'.runAt r = E.runAt r) ∧ ∀ n, E'.pendingOf n = E.pendingOf n := by
  obtain ⟨hr, S, ht, hc⟩ := hE.turn_of_drops hs hd
  have hnum : S.number = m := ht.follows.number
  have hrule : S.run.rule = (E.runAt m).rule := ht.follows.rule
  constructor
  · intro r hrm
    rw [← core_runAt, hc, Core.runAt_put_ne _ (hnum ▸ Ne.symm hrm)]
    rfl
  · intro n
    have hp : ∀ E : Engine, E.pendingOf n = (E.core.ruleAt n).pending := fun E => E.core.pendingOf_eq n
    have hn : S.run.rule < E.core.instances.length := hrule ▸ hE.valid.run m hr
    rw [hp, hp, hc, Core.ruleAt_put _ hn]
    split
    · next hnr =>
      rw [pending_of_arriving ht hd.1, ← hnr, hrule]
      rfl
    · rfl

/-! ## All together -/

/-- **A notification that is admitted and put off is evaluated exactly once, when it is due, if until
then no other of its instance is admitted and the instance keeps its id, and never otherwise; one that
is dropped disturbs nothing. Of each instance at most one deferral goes on, and the instance has
something pending exactly when one does.** -/
theorem supersession {E : Nat → Engine} {last : Nat} (h : Course E last) :
    (∀ i r, i < last → (E i).Accepts (E (i + 1)) r →
      ((E i).ruleOf r).definition.evaluationDelay ≠ 0 →
        Course.Keeps E last i r ((E i).now + ((E i).ruleOf r).definition.evaluationDelay)) ∧
      (∀ k r, k < last → (E k).Fires (E (k + 1)) r →
        (∃ i, i < k ∧ (E i).Accepts (E (i + 1)) r ∧
          ((E i).ruleOf r).definition.evaluationDelay ≠ 0) ∧
        ∃ x S, (E k).deferral? r = some x ∧ Scene.Claims (E k).now (E k).listeners
          (((E k).core.scene r).mapRule (·.finishPending x.generation)) S ∧
          (E (k + 1)).core = (E k).core.put S) ∧
      (∀ k m, k < last → (E k).Drops (E (k + 1)) m →
        (∀ r, r ≠ m → (E (k + 1)).runAt r = (E k).runAt r) ∧
          ∀ n, (E (k + 1)).pendingOf n = (E k).pendingOf n) ∧
      ∀ k n, k ≤ last → (∀ r m, (E k).Alive n r → (E k).Alive n m → r = m) ∧
        (((E k).pendingOf n).isSome = true ↔ ∃ r, (E k).Alive n r) := by
  refine ⟨?_, ?_, ?_, ?_⟩
  · exact fun i r hi ha hd => h.keeps hi ha hd
  · intro k r hk hf
    obtain ⟨x, S, hx, -, hc, hE⟩ :=
      (h.reachable (Nat.le_of_lt hk)).claims_of_fires (h.timed k hk).step hf
    exact ⟨h.accepts_of_isPutOff (Nat.le_of_lt hk) hf.1, x, S, hx, hc, hE⟩
  · exact fun k m hk hd => (h.reachable (Nat.le_of_lt hk)).drops (h.timed k hk).step hd
  · intro k n hk
    have hsound := (h.reachable hk).agenda_sound
    have hp : (E k).pendingOf n = (E k).core.agenda.pending n := (E k).core.pendingOf_eq n
    constructor
    · intro r m hr hm
      obtain ⟨g, due, hx⟩ := alive_iff.mp hr
      obtain ⟨g', due', hy⟩ := alive_iff.mp hm
      exact hsound.alive_unique hx hy
    · rw [hp, Option.isSome_iff_exists]
      constructor
      · rintro ⟨⟨g, r⟩, hgr⟩
        exact ⟨r, alive_iff.mpr ⟨g, (hsound.pending n g r).mp hgr⟩⟩
      · rintro ⟨r, hr⟩
        obtain ⟨g, hx⟩ := alive_iff.mp hr
        exact ⟨(g, r), (hsound.pending n g r).mpr hx⟩

/-- A rule that puts its evaluations off. -/
def tardy : Definition := { prompt with evaluationDelay := 10 }

/-- It is notified, and its evaluation put off. -/
def tardyPutOff : Engine :=
  ((blank.serve (.define tardy)).serve (.notify 0 change .dropIfBusy)).next

/-- The time has come, and the evaluation takes place. -/
def tardyFired : Engine := (tardyPutOff.strike 10).next

def tardyCourse : Nat → Engine
  | 0 => blank
  | 1 => blank.serve (.define tardy)
  | 2 => (blank.serve (.define tardy)).serve (.notify 0 change .dropIfBusy)
  | 3 => tardyPutOff
  | 4 => tardyPutOff.strike 10
  | 5 => tardyFired
  | 6 => tardyFired.next
  | 7 => tardyFired.next.next
  | 8 => tardyFired.next.next.next
  | _ => { tardyFired.next.next.next with now := 11 }

theorem course_tardy : Course tardyCourse 9 := by
  refine ⟨fresh_blank, fun k hk => ?_⟩
  interval_cases k
  · exact .request (q := .define tardy) trivial
  · exact .request (admits_notify (n := 0) (by decide +kernel) change .dropIfBusy)
  · exact timed_next _
  · exact timed_strike (by decide +kernel) (by decide +kernel)
  · exact timed_next _
  · exact timed_next _
  · exact timed_next _
  · exact timed_next _
  · have hnone : (tardyCourse 8).nextDue? (tardyCourse 8).now = none := by decide +kernel
    refine timed_pass (E := tardyCourse 8) (by decide +kernel) (by decide +kernel) fun due hd => ?_
    rw [hnone] at hd
    cases hd

/-- The only run of an engine is not disturbed while everyone keeps their ids. -/
theorem not_disturbs_of_lone (hl : E'.runs.length ≤ 1)
    (hreg : E'.registry.registered = E.registry.registered) : ¬ E.Disturbs E' 0 := by
  rintro (⟨m, hm, -, -, hadm⟩ | ho)
  · have hle : E'.core.runs.length ≤ m := Nat.le_trans hl (Nat.one_le_iff_ne_zero.mpr hm)
    rw [Core.runAt_of_le hle] at hadm
    cases hadm
  · exact Core.not_ousts hreg _ ho

/-- Its evaluation takes place when it is due. -/
theorem tardy_fires : ∃ k, k < 9 ∧ (tardyCourse k).Fires (tardyCourse (k + 1)) 0 ∧
    (tardyCourse k).now = 10 := by
  obtain ⟨hkeeps, -⟩ := supersession course_tardy
  have hk := hkeeps 2 0 (by decide) ⟨by decide +kernel, by decide +kernel⟩ (by decide +kernel)
  have hdue : (tardyCourse 2).now + ((tardyCourse 2).ruleOf 0).definition.evaluationDelay = 10 := by
    decide +kernel
  rw [hdue] at hk
  obtain ⟨k, hk9, hf⟩ := hk.fires (by decide +kernel) fun j hj hj9 _ => by
    interval_cases j <;> exact not_disturbs_of_lone (by decide +kernel) (by decide +kernel)
  exact ⟨k, hk9, hf, (hk.punctual k hk9 hf).2⟩

end Engine

end ReactiveRules
