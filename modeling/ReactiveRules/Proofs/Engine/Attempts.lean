import ReactiveRules.Proofs.Engine.Callbacks
import ReactiveRules.Proofs.Engine.Rest

/-!
# `Proofs/Engine/Attempts.lean` — one attempt at a time

An attempt at an action begins and ends while its run is in flight, and a run in flight holds the
slot. **So the attempts of an instance that is not parallel come one after another**
(`Engine.Reachable.attempts_alone`), and each keeps the refractory period after the one before.
-/

set_option autoImplicit false

namespace ReactiveRules

/-- Has an attempt begun that goes on? -/
def Run.isAttempting (x : Run) : Bool := x.conclusions < x.attempts && !x.isOver

/-- An attempt goes on in flight only. -/
theorem Run.Accounts.inFlight_of_attempting {d : Definition} {x : Run} (h : x.Accounts d)
    (ha : x.isAttempting = true) : x.stage.inFlight = true := by
  obtain ⟨hlt, ho⟩ : x.conclusions < x.attempts ∧ x.isOver = false := by
    simpa [isAttempting] using ha
  by_contra hi
  have hnil := h.log_nil ho (by simpa using hi)
  rw [Run.attempts, hnil] at hlt
  exact Nat.not_lt_zero _ hlt

namespace Engine

variable {E E' : Engine} {r m : Nat}

theorem lt_of_inFlight (hi : (E.runAt r).stage.inFlight = true) : r < E.runs.length := by
  apply lt_of_stage
  intro hs
  rw [hs] at hi
  cases hi

/-- Of an instance that is not parallel, one run at most is in flight. -/
theorem Reachable.inFlight_unique (hE : E.Reachable)
    (hp : (E.ruleOf r).definition.parallel = false) (hn : (E.runAt m).rule = (E.runAt r).rule)
    (hr : (E.runAt r).stage.inFlight = true) (hm : (E.runAt m).stage.inFlight = true) : r = m := by
  by_contra hne
  have hpar := hE.counted.parallel_of_two hE.valid (lt_of_inFlight hr) (lt_of_inFlight hm) hne hn hr hm
  exact Bool.noConfusion (hp.symm.trans hpar)

/-- A run that attempts its action is in flight, and the step is its own. -/
theorem Reachable.attempts_turn (hE : E.Reachable) (hs : Step E E') (ha : E.Attempts E' r) :
    (E.runAt r).stage.inFlight = true ∧ ∀ m, m ≠ r → E'.runAt m = E.runAt m := by
  obtain ⟨-, hreach, S, ht, hc, -⟩ := (hs.core hE.valid).attempt ha
  refine ⟨?_, ?_⟩
  · cases hreach with
    | delayed hstage hdue =>
      have h : (E.runAt r).stage = .delayed _ := hstage
      rw [h]
      rfl
    | judged hstage hr hd =>
      have h : (E.runAt r).stage = .judging _ := hstage
      rw [h]
      rfl
  · intro m hm
    have hnum : S.number = r := ht.follows.number
    rw [← core_runAt, hc]
    exact Core.runAt_put_ne _ fun h => hm (h.symm.trans hnum)

/-- **Whoever attempts the action of an instance that is not parallel has it alone.** -/
theorem Reachable.attempts_alone (hE : E.Reachable) (hs : Step E E') (ha : E.Attempts E' r)
    (hp : (E.ruleOf r).definition.parallel = false) (hne : m ≠ r)
    (hn : (E.runAt m).rule = (E.runAt r).rule) :
    (E.runAt m).stage.inFlight = false ∧ (E'.runAt m).stage.inFlight = false := by
  obtain ⟨hi, hkeep⟩ := hE.attempts_turn hs ha
  have hm : (E.runAt m).stage.inFlight = false := by
    by_contra him
    exact hne (hE.inFlight_unique hp hn hi (by simpa using him)).symm
  exact ⟨hm, by rw [hkeep m hne]; exact hm⟩

/-- **The runners of an instance are those of its runs that hold the slot, which a run does exactly
from its start to its end, and the slots held by name. An instance that is not parallel has at most
one runner, its attempts do not overlap, and each begins no sooner than the refractory period after
any before has ended.** -/
theorem runners_and_attempts (hE : E.Reachable) {n : Nat} {i : Instance}
    (hi : E.registry.instances[n]? = some i) :
    i.runners = E.runs.countP (fun x => x.rule == n && x.claimed) + E.guards.countP (·.2 == n) ∧
      (∀ x ∈ E.runs, x.claimed = x.stage.inFlight) ∧
      (i.definition.parallel = false →
        i.runners ≤ 1 ∧
        (∀ r m, (E.runAt r).rule = n → (E.runAt m).rule = n → (E.runAt r).isAttempting = true →
          (E.runAt m).isAttempting = true → r = m) ∧
        (∀ (E' : Engine) (r m : Nat), Step E E' → E.Attempts E' r → (E.runAt r).rule = n → m ≠ r →
          (E.runAt m).rule = n →
          (E.runAt m).stage.inFlight = false ∧ (E'.runAt m).stage.inFlight = false) ∧
        ∀ (E₁ E₂ E₃ : Engine) (r m : Nat), Step E E₁ → E.Concludes E₁ r → (E.runAt r).rule = n →
          Steps E₁ E₂ → Step E₂ E₃ → E₂.Attempts E₃ m → (E₂.runAt m).rule = n →
          E.now + i.definition.refractoryPeriod ≤ E₂.now) := by
  have hc := hE.counted
  obtain ⟨hn, rfl⟩ := List.getElem?_eq_some_iff.mp hi
  have hrule : E.core.ruleAt n = E.registry.instances[n] := by simp [Core.ruleAt, core, hn]
  have hof : ∀ r, (E.runAt r).rule = n → E.ruleOf r = E.registry.instances[n] := by
    intro r hr
    rw [← hrule, ← hr]
    rfl
  have hclaimed : ∀ x ∈ E.runs, x.claimed = x.stage.inFlight := by
    intro x hx
    obtain ⟨r, hr, rfl⟩ := List.getElem_of_mem hx
    have h := hc.claimed r hr
    simpa [Core.runAt, hr] using h
  refine ⟨?_, hclaimed, fun hp => ⟨?_, ?_, ?_, ?_⟩⟩
  · have hheld := hc.held n hn
    rw [hrule] at hheld
    refine hheld.trans (congrArg (· + _) (List.countP_congr ?_))
    intro x hx
    rw [Core.occupies, hclaimed x hx]
  · have hpar := hc.parallel n hn
    have hone := hc.one n hn
    rw [hrule] at hpar hone
    exact hone (hpar.trans hp)
  · intro r m hr hm har ham
    have hp' : (E.ruleOf r).definition.parallel = false := by rw [hof r hr]; exact hp
    have hlt : ∀ q, (E.runAt q).isAttempting = true → q < E.core.runs.length := by
      intro q hq
      by_contra hle
      rw [← core_runAt, Core.runAt_of_le (Nat.le_of_not_lt hle)] at hq
      cases hq
    have hacc := hE.accounts
    exact hE.inFlight_unique hp' (hm.trans hr.symm)
      ((hacc r (hlt r har)).inFlight_of_attempting har)
      ((hacc m (hlt m ham)).inFlight_of_attempting ham)
  · intro E' r m hs ha hr hne hm
    have hp' : (E.ruleOf r).definition.parallel = false := by rw [hof r hr]; exact hp
    exact hE.attempts_alone hs ha hp' hne (hm.trans hr.symm)
  · intro E₁ E₂ E₃ r m hs hcon hr hst hs₂ ha hm
    -- the exception to the period is one of parallel rules
    have h := hE.attempt_after hs hcon hst hs₂ ha (hm.trans hr.symm)
    rw [hof r hr] at h
    rcases h with hle | ⟨hpar, -⟩
    · exact hle
    · exact absurd (hp.symm.trans hpar) Bool.noConfusion

/-- A rule that is not parallel, and puts off its action. -/
def lone : Definition := { prompt with executionDelay := 10 }

/-- It is notified, and its action is put off. -/
def alone : Engine :=
  ((blank.serve (.define lone)).serve (.notify 0 change .dropIfBusy)).settle

theorem reachable_alone : alone.Reachable := by
  have h₁ := fresh_blank.reachable.step (.request (q := .define lone) trivial)
  have h₂ := h₁.step (.request (admits_notify (n := 0) (by decide +kernel) change .dropIfBusy))
  exact h₂.steps (steps_settle _)

/-- Its run is its one runner, and no other than that run attempts anything. -/
theorem alone_runner : (alone.ruleOf 0).runners = 1 ∧
    ∀ r m, (alone.runAt r).rule = 0 → (alone.runAt m).rule = 0 →
      (alone.runAt r).isAttempting = true → (alone.runAt m).isAttempting = true → r = m := by
  have hrule : (alone.runAt 0).rule = 0 := by decide +kernel
  have hlt : 0 < alone.registry.instances.length := by decide +kernel
  have hi : alone.registry.instances[0]? = some (alone.ruleOf 0) := by
    simp [ruleOf, hrule, hlt]
  obtain ⟨hcount, -, halone⟩ := runners_and_attempts reachable_alone hi
  refine ⟨hcount.trans (by decide +kernel), ?_⟩
  exact (halone (by decide +kernel)).2.1

end Engine

end ReactiveRules
