import Mathlib.Tactic.IntervalCases
import ReactiveRules.Proofs.Engine.Counters
import ReactiveRules.Proofs.Engine.Memory

/-!
# `Proofs/Engine/Notifications.lean` — what becomes of notifications

A rule admits a notification, or drops it when it arrives. **What it counts as its notifications is
the number of those it has admitted, and each of them has ended in one of six ways, or its condition
is being judged or its action performed, or it is held up before that**
(`Engine.Trail.notifications`). A rule is marked as one whose condition is to be judged exactly if it
has admitted a notification since the condition was last put to judgement.
-/

set_option autoImplicit false

namespace ReactiveRules

/-- What has become of a notification that was admitted. -/
inductive Lot where
  | vetoed
  | completed
  | failed
  /-- It found the rule busy, retired or at rest. -/
  | suppressed
  /-- It was put off, and superseded or called off. -/
  | cancelled
  /-- It is put off, waits for the slot, or its action is. -/
  | heldUp
  /-- Its condition is being judged, or its action performed. -/
  | underWay
  /-- Its client has gone away. -/
  | abandoned
  deriving DecidableEq, Repr

namespace Run

def lot? (x : Run) : Option Lot :=
  match x.stage with
  | .ended (.outcome .vetoed) => some .vetoed
  | .ended (.outcome (.completed _ _)) => some .completed
  | .ended (.outcome (.failed _)) => some .failed
  | .ended (.outcome (.suppressed .paused)) => none
  | .ended (.outcome (.suppressed _)) => some .suppressed
  | .ended (.outcome .deferred) => none
  | .ended .cancelled => some .cancelled
  | .ended .abandoned => some .abandoned
  | .deferred _ _ _ | .waiting | .delayed _ => some .heldUp
  | .judging _ | .acting _ _ => some .underWay
  | .arriving => none

/-- Is there a lot that the notification has, other than that its client went away? -/
def isPlain (x : Run) : Bool := x.lot?.any (· != .abandoned)

theorem isPlain_eq_true {x : Run} (h : x.isPlain = true) :
    x.lot?.isSome = true ∧ x.lot? ≠ some .abandoned := by
  cases hl : x.lot? with
  | none => simp [isPlain, hl] at h
  | some l => exact ⟨rfl, fun hs => by simp [isPlain, hl, Option.some.inj hs] at h⟩

/-- Was the notification admitted, and has this become of it? -/
def hasLot (l : Lot) (x : Run) : Bool := x.admitted && x.lot? == some l

/-- Has the run performed its action to its end? -/
def hasExecuted (x : Run) : Bool := x.outcome?.any Outcome.executed

def hasFailed (x : Run) : Bool := x.outcome?.any Outcome.isFailed

end Run

/-! ## Turns -/

namespace Scene

variable {now : Nat} {S S' : Scene} {ls : List Listener}

theorem lot_conclude (S : Scene) (now : Nat) (result : Except RuleError Json) :
    (S.conclude now result).run.isPlain = true := by
  cases result <;> rfl

theorem Acts.lot (h : Acts now S S') : S'.run.isPlain = true := by
  cases h with
  | unread e => exact lot_conclude _ _ _
  | acting e => rfl

theorem Decides.lot (h : Decides now S S') : S'.run.isPlain = true := by
  cases h with
  | misjudged e => rfl
  | declines => rfl
  | proceeds hp =>
    cases hp with
    | rests hr => rfl
    | delays hr hd => rfl
    | acts hr hd ha => exact ha.lot

theorem Starts.lot (h : Starts now ls S S') : S'.run.isPlain = true := by
  cases h with
  | rests hr => rfl
  | broke hr hv => rfl
  | vetoed hr hv => rfl
  | judges hr hv hj => cases hj <;> rfl

theorem Claims.lot (h : Claims now ls S S') : S'.run.isPlain = true := by
  cases h with
  | retired h => rfl
  | starts h hs ha => exact ha.lot
  | busy h hs ha => rfl
  | waits h hs ha => rfl

/-- After a turn the lot of the notification is plain, unless the rule was paused when it arrived. -/
theorem Turn.lot (h : Turn now ls S S') :
    S'.run.isPlain = true ∨
      S.run.stage = .arriving ∧ S'.run.admitted = S.run.admitted ∧ S'.run.lot? = none := by
  cases h with
  | paused hs hp => exact .inr ⟨hs, rfl, rfl⟩
  | rests hs hp hr => exact .inl rfl
  | arrives hs hp hr hd ha => exact .inl ha.lot
  | fires hs hd ha => exact .inl ha.lot
  | cancelled hs => exact .inl rfl
  | gains hs hw hc ha => exact .inl ha.lot
  | leaves hs hr => exact .inl rfl
  | queues hs hw hc hr => exact .inl (by simp [Run.isPlain, Run.lot?, mapSlot, hs])
  | acts hs hd ha => exact .inl ha.lot
  | forgoes hs hr => exact .inl rfl
  | broke hs m => exact .inl rfl
  | decides hs ha => exact .inl ha.lot
  | concludes hs result => exact .inl (S.lot_conclude now result)

/-- A notification is looked at once, and admitted then unless the rule is paused or rests. -/
theorem Turn.admission (h : Turn now ls S S')
    (hu : S.run.stage = .arriving → S.run.admitted = false) :
    S.run.stage = .arriving ∧ S'.run.admitted = (!S.rule.paused && !S.rule.inRefractory now) ∨
      S.run.stage ≠ .arriving ∧ S'.run.admitted = S.run.admitted := by
  by_cases hs : S.run.stage = .arriving
  · refine .inl ⟨hs, ?_⟩
    cases h with
    | paused _ hp => rw [hp]; exact hu hs
    | rests _ hp hr => rw [hp, hr]; exact hu hs
    | arrives _ hp hr hd ha => rw [hp, hr]; exact ha.calm.admitted
    | fires hs' => rw [hs] at hs'; cases hs'
    | cancelled hs' => rw [hs] at hs'; cases hs'
    | gains hs' => rw [hs] at hs'; cases hs'
    | leaves hs' => rw [hs] at hs'; cases hs'
    | queues hs' => rw [hs] at hs'; cases hs'
    | acts hs' => rw [hs] at hs'; cases hs'
    | forgoes hs' => rw [hs] at hs'; cases hs'
    | broke hs' => rw [hs] at hs'; cases hs'
    | decides hs' => rw [hs] at hs'; cases hs'
    | concludes hs' => rw [hs] at hs'; cases hs'
  · refine .inr ⟨hs, ?_⟩
    cases h.recalls with
    | records hs' ha hf => exact absurd hs' hs
    | keeps ha hf => exact ha

end Scene

namespace Core

variable {C C' : Core} {r n : Nat}

/-! ## Steps -/

/-- The notification of a run is looked at. -/
def Receives (C C' : Core) (r : Nat) : Prop :=
  (C.runAt r).stage = .arriving ∧ (C'.runAt r).stage ≠ .arriving ∧
    (C'.runAt r).lot? ≠ some .abandoned

/-- The rule of a run would admit a notification. -/
def Welcomes (C : Core) (r : Nat) : Prop :=
  (C.ruleAt (C.runAt r).rule).paused = false ∧ (C.ruleAt (C.runAt r).rule).inRefractory C.now = false

/-- What was admitted is a notification with a lot. -/
def Settled (C : Core) : Prop := ∀ r, (C.runAt r).admitted = true → (C.runAt r).lot?.isSome = true

theorem Settled.step (h : C.Settled) (hu : C.Unheard) (hs : C.Step C') : C'.Settled := by
  intro r ha
  by_cases hr : r < C.runs.length
  · cases hs.run hr with
    | same hx =>
      rw [hx] at ha ⊢
      exact h r ha
    | cancelled hx =>
      rw [hx, Run.cancelDeferral_admitted] at ha
      rw [hx]
      unfold Run.cancelDeferral
      split
      · rfl
      · exact h r ha
    | @turned S ht hC =>
      have hx : C'.runAt r = S.run := hC ▸ runAt_put_self C ht.follows.number hr
      rw [hx] at ha ⊢
      rcases ht.lot with hl | ⟨hs', ha', -⟩
      · exact (Run.isPlain_eq_true hl).1
      · exact absurd ((hu r hs').1.symm.trans (ha'.symm.trans ha)) Bool.noConfusion
    | deferred hd hx => rw [hx]; rfl
    | abandoned hn hs' hx => rw [hx]; rfl
  · by_cases hr' : r < C'.runs.length
    · obtain ⟨_, _, _, _, hx, -⟩ := hs.run_new (Nat.le_of_not_lt hr) hr'
      rw [hx] at ha
      cases ha
    · rw [runAt_of_le (Nat.le_of_not_lt hr')] at ha
      cases ha

/-- **A step admits the notifications that it finds arriving at a rule that would admit them, and no
other.** -/
theorem Step.admitted_iff (h : C.Step C') (hu : C.Unheard) (r : Nat) :
    (C'.runAt r).admitted = true ↔
      (C.runAt r).admitted = true ∨ C.Receives C' r ∧ C.Welcomes r := by
  -- a notification that is not looked at stays as it is, admitted or not
  have hstay : (C'.runAt r).admitted = (C.runAt r).admitted → ¬ C.Receives C' r →
      ((C'.runAt r).admitted = true ↔
        (C.runAt r).admitted = true ∨ C.Receives C' r ∧ C.Welcomes r) := by
    intro ha hn
    rw [ha]
    exact ⟨.inl, fun h => h.elim id fun hx => absurd hx.1 hn⟩
  by_cases hr : r < C.runs.length
  · cases h.run hr with
    | same hx => exact hstay (by rw [hx]) fun hrec => hrec.2.1 (hx ▸ hrec.1)
    | cancelled hx =>
      refine hstay (by rw [hx, Run.cancelDeferral_admitted]) fun hrec => hrec.2.1 ?_
      rw [hx, Run.cancelDeferral, hrec.1]
      exact hrec.1
    | @turned S ht hC =>
      have hx : C'.runAt r = S.run := hC ▸ runAt_put_self C ht.follows.number hr
      rcases ht.admission fun hs => (hu r hs).1 with ⟨hs, ha⟩ | ⟨hs, ha⟩
      · have hrec : C.Receives C' r := by
          refine ⟨hs, fun hs' => ?_, ?_⟩
          · have hrank := ht.rank
            rw [← hx, hs'] at hrank
            cases hrank
          · rw [hx]
            rcases ht.lot with hl | ⟨-, -, hl⟩
            · exact (Run.isPlain_eq_true hl).2
            · rw [hl]
              exact (Option.some_ne_none _).symm
        have hw : (!(C.scene r).rule.paused && !(C.scene r).rule.inRefractory C.now) = true
            ↔ C.Welcomes r := by
          rw [Bool.and_eq_true, Bool.not_eq_true', Bool.not_eq_true']
          rfl
        rw [hx, ha, hw, (hu r hs).1]
        exact ⟨fun hw' => .inr ⟨hrec, hw'⟩, fun h => h.elim (absurd · Bool.false_ne_true) (·.2)⟩
      · exact hstay (by rw [hx]; exact ha) fun hrec => hs hrec.1
    | deferred hd hx =>
      have hrec : C.Receives C' r := by
        rw [Receives, hx]
        exact ⟨hd.stage, Stage.noConfusion, by simp [Run.lot?, Scene.defer]⟩
      rw [hx]
      exact ⟨fun _ => .inr ⟨hrec, hd.paused, hd.refractory⟩, fun _ => rfl⟩
    | abandoned hn hs hx =>
      exact hstay (by rw [hx]; rfl) fun hrec => hrec.2.2 (by rw [hx]; rfl)
  · by_cases hr' : r < C'.runs.length
    · obtain ⟨_, _, _, _, hx, -⟩ := h.run_new (Nat.le_of_not_lt hr) hr'
      refine hstay ?_ fun hrec => hrec.2.1 (by rw [hx])
      rw [hx, runAt_of_le (Nat.le_of_not_lt hr)]
      rfl
    · refine hstay ?_ fun hrec => hrec.2.1 ?_
      · rw [runAt_of_le (Nat.le_of_not_lt hr'), runAt_of_le (Nat.le_of_not_lt hr)]
      · rw [runAt_of_le (Nat.le_of_not_lt hr')]
        rfl

/-! ### Marks -/

/-- A notification of the instance is admitted. -/
def Admits (C C' : Core) (n : Nat) : Prop := ∃ r, (C'.runAt r).rule = n ∧ C.Accepts C' r

/-- The condition of the instance is put to judgement. -/
def Judges (C C' : Core) (n : Nat) : Prop :=
  ∃ r, (C'.runAt r).rule = n ∧ (C.runAt r).judgements < (C'.runAt r).judgements

theorem Idles.admitted_judgements (h : C.Idles C') (r : Nat) :
    (C'.runAt r).admitted = (C.runAt r).admitted ∧
      (C'.runAt r).judgements = (C.runAt r).judgements := by
  have hj : ∀ x : Run, x.cancelDeferral.judgements = x.judgements :=
    fun x => congrArg (·.countP Milestone.isJudgement) x.cancelDeferral_log
  have hruns := h.runs
  unfold runAt
  revert hruns
  generalize C'.runs = ys
  intro hruns
  cases hruns with
  | same => exact ⟨rfl, rfl⟩
  | cancelled p =>
    rcases getD_modify_or C.runs p Run.cancelDeferral default r with hm | ⟨-, hm⟩ <;> rw [hm]
    · exact ⟨rfl, rfl⟩
    · exact ⟨Run.cancelDeferral_admitted _, hj _⟩
  | @joined x hs ha hl =>
    rcases getD_concat_or C.runs x default r with hm | ⟨hm, hm'⟩
    · rw [hm]
      exact ⟨rfl, rfl⟩
    · rw [hm, hm']
      exact ⟨ha, by rw [Run.judgements, hl]; rfl⟩

/-- If only one run has come to something, the instance has by that run. -/
theorem exists_run_iff {P : Nat → Prop} (hr : (C'.runAt r).rule = (C.runAt r).rule)
    (hother : ∀ m, m ≠ r → ¬ P m) :
    (∃ m, (C'.runAt m).rule = n ∧ P m) ↔ (C.runAt r).rule = n ∧ P r := by
  constructor
  · rintro ⟨m, hn, hm⟩
    by_cases hmr : m = r
    · subst hmr
      exact ⟨hr.symm.trans hn, hm⟩
    · exact absurd hm (hother m hmr)
  · rintro ⟨hn, hm⟩
    exact ⟨r, hr.trans hn, hm⟩

/-- **A rule is marked if it was, or admits a notification in the step, unless its condition is put to
judgement in it.** -/
theorem Step.dirty_iff (h : C.Step C') (hv : C.Valid) (hu : C.Unheard) (n : Nat) :
    (C'.ruleAt n).dirty = true ↔
      ((C.ruleAt n).dirty = true ∨ C.Admits C' n) ∧ ¬ C.Judges C' n := by
  cases h.books hu with
  | idles hi =>
    have ha : ¬ C.Admits C' n := by
      rintro ⟨r, -, hno, hyes⟩
      rw [(hi.admitted_judgements r).1, hno] at hyes
      cases hyes
    have hj : ¬ C.Judges C' n := by
      rintro ⟨r, -, hlt⟩
      rw [(hi.admitted_judgements r).2] at hlt
      exact Nat.lt_irrefl _ hlt
    rw [(hi.rule n).dirty]
    exact ⟨fun hd => ⟨.inl hd, hj⟩, fun hd => hd.1.resolve_right ha⟩
  | @turns p r S hr hp hn hrule hc hm hC =>
    have hi := C.idles_cancelPending p
    have hr' : r < (C.cancelPending p).runs.length := by simpa using hr
    have hself : C'.runAt r = S.run := hC ▸ runAt_put_self _ hn hr'
    have hother : ∀ m, m ≠ r → (C'.runAt m).admitted = (C.runAt m).admitted ∧
        (C'.runAt m).judgements = (C.runAt m).judgements := by
      intro m hmr
      have hx : C'.runAt m = (C.cancelPending p).runAt m :=
        hC ▸ runAt_put_ne _ (hn ▸ Ne.symm hmr)
      rw [hx]
      exact hi.admitted_judgements m
    have hadmits : C.Admits C' n ↔ (C.runAt r).rule = n ∧ C.Accepts C' r :=
      exists_run_iff (hself ▸ hrule) fun m hmr ⟨hno, hyes⟩ =>
        absurd (hno.symm.trans ((hother m hmr).1.symm.trans hyes)) Bool.false_ne_true
    have hjudges : C.Judges C' n ↔
        (C.runAt r).rule = n ∧ (C.runAt r).judgements < (C'.runAt r).judgements :=
      exists_run_iff (hself ▸ hrule) fun m hmr hlt =>
        Nat.lt_irrefl _ (Nat.lt_of_lt_of_eq hlt (hother m hmr).2)
    have hinst : C'.ruleAt n = if S.run.rule = n then S.rule else C.ruleAt n := by
      rw [hC, ruleAt_put _ (by rw [cancelPending_instances, hrule]; exact hv.run r hr),
        ruleAt_cancelPending]
    rw [hadmits, hjudges, hinst, hrule, Accepts, hself]
    by_cases hrn : (C.runAt r).rule = n
    · rw [if_pos hrn]
      have hold : (C.ruleAt n).dirty = (C.scene r).rule.dirty := hrn ▸ rfl
      rw [hold]
      cases hm with
      | judges hj hd =>
        have hj' : (C.runAt r).judgements < S.run.judgements := hj
        simp [hd, hrn, hj']
      | admits hj ha ha' hd =>
        have hj' : S.run.judgements = (C.runAt r).judgements := hj
        have ha₀ : (C.runAt r).admitted = false := ha
        simp [hd, hrn, hj', ha₀, ha']
      | keeps hj ha hd =>
        have hj' : S.run.judgements = (C.runAt r).judgements := hj
        have ha₀ : S.run.admitted = (C.runAt r).admitted := ha
        simp [hd, hj', ha₀]
    · rw [if_neg hrn]
      simp [hrn]

end Core

/-! ## Lots -/

/-- Each admitted notification of a list has one lot. -/
theorem countP_lots {xs : List Run} (n : Nat)
    (h : ∀ x ∈ xs, x.admitted = true → x.lot?.isSome = true) :
    (xs.countP fun x => x.rule == n && x.admitted)
      = (xs.countP fun x => x.rule == n && x.hasLot .vetoed)
        + (xs.countP fun x => x.rule == n && x.hasLot .completed)
        + (xs.countP fun x => x.rule == n && x.hasLot .failed)
        + (xs.countP fun x => x.rule == n && x.hasLot .suppressed)
        + (xs.countP fun x => x.rule == n && x.hasLot .cancelled)
        + (xs.countP fun x => x.rule == n && x.hasLot .heldUp)
        + (xs.countP fun x => x.rule == n && x.hasLot .underWay)
        + (xs.countP fun x => x.rule == n && x.hasLot .abandoned) := by
  induction xs with
  | nil => rfl
  | cons x rest ih =>
    have hrest := ih fun y hy => h y (List.mem_cons_of_mem x hy)
    have hx := h x List.mem_cons_self
    simp only [List.countP_cons]
    cases hn : x.rule == n with
    | false => simpa using hrest
    | true =>
      cases ha : x.admitted with
      | false => simpa [Run.hasLot, ha] using hrest
      | true =>
        obtain ⟨l, hl⟩ := Option.isSome_iff_exists.mp (hx ha)
        cases l <;> simp [Run.hasLot, ha, hl] <;> simp only [Run.hasLot] at hrest <;> omega

namespace Engine

theorem Reachable.settled {E : Engine} (hE : E.Reachable) : E.core.Settled := by
  have hboth : E.core.Unheard ∧ E.core.Settled := by
    refine hE.induction (P := fun C => C.Unheard ∧ C.Settled) (fun E₀ hf => ?_) ?_
    · refine ⟨hf.reachable.unheard, fun r ha => ?_⟩
      obtain ⟨_, _, _, _, _, _, rfl⟩ := hf
      cases ha
    · rintro C C' _ ⟨hu, hl⟩ hs
      exact ⟨hu.step hs, hl.step hu hs⟩
  exact hboth.2

/-- What an instance has counted and marked, `k` steps after nothing had happened. -/
structure Accounted (E : Nat → Engine) (k n : Nat) : Prop where
  triggers : ((E k).core.ruleAt n).triggers = (E k).core.tally n (·.admitted)
  /-- Admitted is what arrived at the rule when it was neither paused nor at rest. -/
  admitted : ∀ r, ((E k).runAt r).admitted = true ↔
    ∃ j < k, (E j).core.Receives (E (j + 1)).core r ∧ (E j).core.Welcomes r
  /-- Every notification that was admitted has one lot. -/
  lots : (E k).core.tally n (·.admitted)
    = (E k).core.tally n (·.hasLot .vetoed) + (E k).core.tally n (·.hasLot .completed)
      + (E k).core.tally n (·.hasLot .failed) + (E k).core.tally n (·.hasLot .suppressed)
      + (E k).core.tally n (·.hasLot .cancelled) + (E k).core.tally n (·.hasLot .heldUp)
      + (E k).core.tally n (·.hasLot .underWay) + (E k).core.tally n (·.hasLot .abandoned)
  executions : ((E k).core.ruleAt n).executions = (E k).core.tally n Run.hasExecuted
  failures : ((E k).core.ruleAt n).failures = (E k).core.tally n Run.hasFailed
  /-- A notification has been admitted, and the condition not put to judgement since. -/
  dirty : ((E k).core.ruleAt n).dirty = true ↔
    ∃ i < k, (E i).core.Admits (E (i + 1)).core n ∧
      ∀ j, i ≤ j → j < k → ¬ (E j).core.Judges (E (j + 1)).core n

namespace Trail

variable {E : Nat → Engine} {last k : Nat}

theorem admitted_iff (h : Trail E last) (hk : k ≤ last) (r : Nat) :
    ((E k).runAt r).admitted = true ↔
      ∃ j < k, (E j).core.Receives (E (j + 1)).core r ∧ (E j).core.Welcomes r := by
  induction k with
  | zero =>
    have hruns : (E 0).runs = [] := by
      obtain ⟨_, _, _, _, _, _, hE⟩ := h.fresh
      rw [hE]
    have hx : (E 0).runAt r = default := by simp [runAt, hruns]
    rw [hx]
    refine ⟨fun ha => absurd ha Bool.false_ne_true, ?_⟩
    exact fun hx => absurd hx.choose_spec.1 (Nat.not_lt_zero _)
  | succ k ih =>
    have hE := h.reachable (Nat.le_of_succ_le hk)
    have hs := (h.step k hk).core hE.valid
    refine (hs.admitted_iff hE.unheard r).trans ?_
    rw [core_runAt, ih (Nat.le_of_succ_le hk)]
    exact Nat.exists_lt_succ_right.symm

theorem dirty_iff (h : Trail E last) (hk : k ≤ last) (n : Nat) :
    ((E k).core.ruleAt n).dirty = true ↔
      ∃ i < k, (E i).core.Admits (E (i + 1)).core n ∧
        ∀ j, i ≤ j → j < k → ¬ (E j).core.Judges (E (j + 1)).core n := by
  induction k with
  | zero =>
    have hrule : ((E 0).core.ruleAt n).dirty = false := by
      obtain ⟨_, _, _, _, _, _, hE⟩ := h.fresh
      rw [hE]
      rfl
    rw [hrule]
    refine ⟨fun ha => absurd ha Bool.false_ne_true, ?_⟩
    exact fun hx => absurd hx.choose_spec.1 (Nat.not_lt_zero _)
  | succ k ih =>
    have hE := h.reachable (Nat.le_of_succ_le hk)
    have hs := (h.step k hk).core hE.valid
    rw [hs.dirty_iff hE.valid hE.unheard n, ih (Nat.le_of_succ_le hk)]
    constructor
    · rintro ⟨⟨i, hi, ha, hno⟩ | ha, hk'⟩
      · refine ⟨i, Nat.lt_succ_of_lt hi, ha, fun j hij hj => ?_⟩
        rcases Nat.lt_succ_iff_lt_or_eq.mp hj with hj | rfl
        · exact hno j hij hj
        · exact hk'
      · refine ⟨k, Nat.lt_succ_self k, ha, fun j hij hj => ?_⟩
        obtain rfl : j = k := by omega
        exact hk'
    · rintro ⟨i, hi, ha, hno⟩
      refine ⟨?_, hno k (Nat.le_of_lt_succ hi) (Nat.lt_succ_self k)⟩
      rcases Nat.lt_succ_iff_lt_or_eq.mp hi with hi | rfl
      · exact .inl ⟨i, hi, ha, fun j hij hj => hno j hij (Nat.lt_succ_of_lt hj)⟩
      · exact .inr ha

/-- **What an instance counts as its notifications is the number of those it has admitted, and each of
them has one lot. It counts as executions and as failures how many of its runs ended so, and is marked
exactly if it has admitted a notification since its condition was last put to judgement.** -/
theorem notifications_accounted (h : Trail E last) (hk : k ≤ last) (n : Nat) :
    Accounted E k n := by
  have hE := h.reachable hk
  have htally := hE.tallied
  refine ⟨?_, h.admitted_iff hk, ?_, ?_, ?_, h.dirty_iff hk n⟩
  · exact (htally .triggers n).trans (by rw [Counter.counts_triggers])
  · refine countP_lots n fun x hx ha => ?_
    obtain ⟨r, hr, rfl⟩ := List.getElem_of_mem hx
    have hr' : r < (E k).runs.length := hr
    have hrun : (E k).core.runAt r = (E k).runs[r] := by simp [Core.runAt, hr']
    have hl := hE.settled r
    rw [hrun] at hl
    exact hl ha
  · exact htally .executions n
  · exact htally .failures n

end Trail

/-- A rule is defined and notified, its condition is judged and its action performed. -/
def promptTrail : Nat → Engine
  | 0 => blank
  | 1 => blank.serve (.define prompt)
  | 2 => (blank.serve (.define prompt)).serve (.notify 0 change .dropIfBusy)
  | k + 3 => (promptTrail (k + 2)).next

theorem trail_prompt : Trail promptTrail 5 := by
  refine ⟨fresh_blank, fun k hk => ?_⟩
  interval_cases k
  · exact .request (q := .define prompt) trivial
  · exact .request (admits_notify (n := 0) (by decide +kernel) change .dropIfBusy)
  · exact step_next (by decide +kernel)
  · exact step_next (by decide +kernel)
  · exact step_next (by decide +kernel)

/-- The one notification has been admitted and completed. -/
theorem prompt_accounted : Accounted promptTrail 5 0 ∧
    ((promptTrail 5).core.ruleAt 0).triggers = 1 ∧
    (promptTrail 5).core.tally 0 (·.hasLot .completed) = 1 ∧
    ((promptTrail 5).core.ruleAt 0).executions = 1 :=
  ⟨trail_prompt.notifications_accounted (Nat.le_refl 5) 0, by decide +kernel, by decide +kernel,
    by decide +kernel⟩

/-- **While the action is performed, the notification counts and has neither ended nor is it held up
before its action.** -/
theorem under_way_besides : ¬ ∀ (E : Engine) (n : Nat), E.Reachable →
    (∀ x ∈ E.runs, x.hasLot .abandoned = false) → (E.core.ruleAt n).triggers
      = E.core.tally n (·.hasLot .vetoed) + E.core.tally n (·.hasLot .completed)
        + E.core.tally n (·.hasLot .failed) + E.core.tally n (·.hasLot .suppressed)
        + E.core.tally n (·.hasLot .cancelled) + E.core.tally n (·.hasLot .heldUp) := by
  intro hall
  have hE : (promptTrail 4).Reachable := trail_prompt.reachable (by decide)
  have hsum := hall (promptTrail 4) 0 hE (by decide +kernel)
  have hone : ((promptTrail 4).core.ruleAt 0).triggers = 1 := by decide +kernel
  rw [hone] at hsum
  revert hsum
  decide +kernel

end Engine

end ReactiveRules
