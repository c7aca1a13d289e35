import ReactiveRules.Proofs.Json.Text
import ReactiveRules.Settings.Wire

/-!
# `Proofs/Wire/Settings.lean` — the documents of settings

A document of settings may leave out what it likes, on both levels. **What it has is taken as it is, what it
leaves out is the default, and nothing else in it counts** (`Settings.ofJson?_iff`).
-/

set_option autoImplicit false

namespace ReactiveRules

open Json

namespace RuleDefaults

variable {j j' : Json} {d : RuleDefaults}

theorem completes_iff {fs : List (String × Json)} :
    Completes names fs (toJson {}) d.toJson ↔
      optional? fs "priority" int32? 100 = some d.priority ∧
      optional? fs "delay_before_evaluation_ms" uint64? 0 = some d.evaluationDelay ∧
      optional? fs "delay_before_execute_ms" uint64? 0 = some d.executionDelay ∧
      optional? fs "refractory_period_ms" uint64? 0 = some d.refractoryPeriod ∧
      optional? fs "parallel_execution" bool? false = some d.parallel ∧
      optional? fs "clear_facts_after_execution" bool? false = some d.clearFacts ∧
      optional? fs "execution_timeout_ms" uint64? 0 = some d.executionTimeout ∧
      optional? fs "valid_delay_ms" int64? 0 = some d.factDelay ∧
      optional? fs "valid_until_ms" int64? (-1) = some d.factUntil := by
  simp only [Completes, names, List.forall_mem_cons, List.not_mem_nil, false_implies, implies_true,
    and_true]
  simp [toJson, field?_object, lookup?_cons, optional?_iff int32?_iff, optional?_iff uint64?_iff,
    optional?_iff int64?_iff, optional?_iff bool?_iff]

/-- Defaults are read from just the documents that give them. -/
theorem ofJson?_iff : ofJson? j = some d ↔ Gives names (toJson {}) d.toJson j := by
  simp only [Gives, completes_iff]
  constructor
  · intro h
    unfold ofJson? at h
    simp only [Option.bind_eq_bind, Option.bind_eq_some_iff] at h
    obtain ⟨fs, hfs, p, hp, e, he, x, hx, r, hr, a, ha, c, hc, t, ht, v, hv, u, hu, h⟩ := h
    cases h
    exact ⟨fs, hfs, hp, he, hx, hr, ha, hc, ht, hv, hu⟩
  · rintro ⟨fs, hfs, hp, he, hx, hr, ha, hc, ht, hv, hu⟩
    unfold ofJson?
    simp only [Option.bind_eq_bind, hfs, Option.bind_some, hp, he, hx, hr, ha, hc, ht, hv, hu]

theorem ofJson?_toJson (d : RuleDefaults) : ofJson? d.toJson = some d := by
  refine ofJson?_iff.mpr (gives_object ?_)
  simp only [names, List.forall_mem_cons, List.not_mem_nil, false_implies, implies_true,
    and_true]
  simp [field?_object, lookup?_cons]

theorem ofJson?_congr (h : Agree names j j') : ofJson? j = ofJson? j' :=
  Option.ext fun d => by
    rw [ofJson?_iff, ofJson?_iff, h.gives_iff]

theorem writable_toJson (d : RuleDefaults) (depth : Nat) : Writable (depth + 1) d.toJson := by
  refine writable_object ?_
  simp only [List.forall_mem_cons]
  exact ⟨writable_ofInt32 _ _, writable_ofUInt64 _ _, writable_ofUInt64 _ _, writable_ofUInt64 _ _,
    .bool _ _, .bool _ _, writable_ofUInt64 _ _, writable_ofInt64 _ _, writable_ofInt64 _ _,
    List.forall_mem_nil _⟩

end RuleDefaults

namespace Settings

variable {j j' : Json} {s : Settings} {fs : List (String × Json)}

/-! ## The width of facts -/

/-- The name of the only field of a fact format. -/
def widthNames : List String := ["max_value_len"]

theorem widthOfJson?_iff {n default : UInt64} : widthOfJson? default j = some n ↔
    Gives widthNames (widthToJson default) (widthToJson n) j := by
  simp [widthOfJson?, Gives, Completes, widthNames, widthToJson, field?_object, lookup?_cons,
    optional?_iff uint64?_iff, Option.bind_eq_some_iff]

theorem widthOfJson?_congr {default : UInt64} (h : Agree widthNames j j') :
    widthOfJson? default j = widthOfJson? default j' :=
  Option.ext fun n => by
    rw [widthOfJson?_iff, widthOfJson?_iff, h.gives_iff]

theorem widthOfJson?_toJson (default n : UInt64) : widthOfJson? default (widthToJson n) = some n :=
  widthOfJson?_iff.mpr (gives_object (by simp [widthNames, field?_object, lookup?_cons]))

theorem writable_width (n : UInt64) (depth : Nat) : Writable (depth + 1) (widthToJson n) :=
  writable_object (List.forall_mem_cons.mpr ⟨writable_ofUInt64 _ _, List.forall_mem_nil _⟩)

/-! ## Settings -/

/-- The names whose values are no documents of their own. -/
def plainNames : List String :=
  ["hysteresis_ms", "housekeeping_interval_ms", "dispatch_workers", "history_size"]

/-- The settings that these fields stand for: on both levels a field that is there is taken as it is, and
one that is absent is the default. -/
structure Given (fs : List (String × Json)) (s : Settings) : Prop where
  plain : Completes plainNames fs (toJson {}) s.toJson
  ruleDefaults : ∀ v, lookup? fs "rule_defaults" = some v →
    Gives RuleDefaults.names (RuleDefaults.toJson {}) s.ruleDefaults.toJson v
  noRuleDefaults : lookup? fs "rule_defaults" = none → s.ruleDefaults = {}
  factFormat : ∀ v, lookup? fs "fact_format" = some v →
    Gives widthNames (widthToJson ({} : Settings).factWidth) (widthToJson s.factWidth) v
  noFactFormat : lookup? fs "fact_format" = none → s.factWidth = ({} : Settings).factWidth

theorem completes_iff : Completes plainNames fs (toJson {}) s.toJson ↔
    optional? fs "hysteresis_ms" uint64? 1000 = some s.hysteresis ∧
    optional? fs "housekeeping_interval_ms" uint64? 5000 = some s.housekeepingInterval ∧
    optional? fs "dispatch_workers" uint64? 2 = some s.dispatchWorkers ∧
    optional? fs "history_size" uint64? 1000 = some s.historySize := by
  simp only [Completes, plainNames, List.forall_mem_cons, List.not_mem_nil, false_implies, implies_true,
    and_true]
  simp [toJson, field?_object, lookup?_cons, optional?_iff uint64?_iff]

theorem given_iff : Given fs s ↔ Completes plainNames fs (toJson {}) s.toJson ∧
    optional? fs "rule_defaults" RuleDefaults.ofJson? {} = some s.ruleDefaults ∧
    optional? fs "fact_format" (widthOfJson? ({} : Settings).factWidth) ({} : Settings).factWidth
      = some s.factWidth := by
  rw [optional?_eq_some, optional?_eq_some]
  simp only [RuleDefaults.ofJson?_iff, widthOfJson?_iff]
  exact ⟨fun h => ⟨h.plain, ⟨h.ruleDefaults, h.noRuleDefaults⟩, h.factFormat, h.noFactFormat⟩,
    fun ⟨hp, ⟨hr, hr'⟩, hf, hf'⟩ => ⟨hp, hr, hr', hf, hf'⟩⟩

/-- **Settings are read from just the documents that give them.** -/
theorem ofJson?_iff : ofJson? j = some s ↔ ∃ fs, fields? names j = some fs ∧ Given fs s := by
  simp only [given_iff, completes_iff]
  constructor
  · intro h
    unfold ofJson? at h
    simp only [Option.bind_eq_bind, Option.bind_eq_some_iff] at h
    obtain ⟨fs, hfs, y, hy, i, hi, w, hw, n, hn, r, hr, f, hf, h⟩ := h
    cases h
    exact ⟨fs, hfs, ⟨hy, hi, hw, hn⟩, hr, hf⟩
  · rintro ⟨fs, hfs, ⟨hy, hi, hw, hn⟩, hr, hf⟩
    unfold ofJson?
    simp only [Option.bind_eq_bind, hfs, Option.bind_some, hy, hi, hw, hn, hr, hf]

/-- An unknown field, and one given on each level. -/
example :
    ofJson? (.obj [("history_size", .int 5), ("rule_defaults", .obj [("priority", .int (-1))]),
      ("size", .null)]) = some { historySize := 5, ruleDefaults := { priority := -1 } } := by
  decide +kernel

theorem ofJson?_toJson (s : Settings) : ofJson? s.toJson = some s := by
  refine ofJson?_iff.mpr ⟨arranged _, rfl, given_iff.mpr ⟨?_, ?_, ?_⟩⟩
  · refine completes_object ?_
    simp only [plainNames, List.forall_mem_cons, List.not_mem_nil, false_implies, implies_true,
      and_true]
    simp [field?_object, lookup?_cons]
  · have hlookup : s.toJson.field? "rule_defaults" = some s.ruleDefaults.toJson := by
      simp [toJson, field?_object, lookup?_cons]
    exact (optional?_of_lookup hlookup _).trans (RuleDefaults.ofJson?_toJson _)
  · have hlookup : s.toJson.field? "fact_format" = some (widthToJson s.factWidth) := by
      simp [toJson, field?_object, lookup?_cons]
    exact (optional?_of_lookup hlookup _).trans (widthOfJson?_toJson _ _)

/-- Two documents of settings that are the same under all names on both levels. -/
def Same : Json → Json → Prop :=
  AgreeBy names fun
    | "rule_defaults" => Agree RuleDefaults.names
    | "fact_format" => Agree widthNames
    | _ => Eq

theorem ofJson?_congr (h : Same j j') : ofJson? j = ofJson? j' := by
  cases h with
  | refl => rfl
  | @obj fs fs' h =>
    have hplain : ∀ name, name ∈ names → name ≠ "rule_defaults" → name ≠ "fact_format" →
        ∀ default, optional? fs name uint64? default = optional? fs' name uint64? default := by
      intro name hname hdefaults hformat default
      refine optional?_congr (h name hname) fun v v' hv => ?_
      split at hv
      · exact absurd rfl hdefaults
      · exact absurd rfl hformat
      · rw [hv]
    have hdefaults : optional? fs "rule_defaults" RuleDefaults.ofJson? {} =
        optional? fs' "rule_defaults" RuleDefaults.ofJson? {} :=
      optional?_congr (h "rule_defaults" (by decide)) fun _ _ => RuleDefaults.ofJson?_congr
    have hformat : ∀ default, optional? fs "fact_format" (widthOfJson? default) default =
        optional? fs' "fact_format" (widthOfJson? default) default := fun _ =>
      optional?_congr (h "fact_format" (by decide)) fun _ _ => widthOfJson?_congr
    unfold ofJson?
    simp only [fields?, Option.bind_eq_bind, Option.bind_some, hdefaults, hformat,
      hplain "hysteresis_ms" (by decide) (by decide) (by decide),
      hplain "housekeeping_interval_ms" (by decide) (by decide) (by decide),
      hplain "dispatch_workers" (by decide) (by decide) (by decide),
      hplain "history_size" (by decide) (by decide) (by decide)]

theorem writable_toJson (s : Settings) (depth : Nat) : Writable (depth + 2) s.toJson := by
  refine writable_object ?_
  simp only [List.forall_mem_cons]
  exact ⟨writable_ofUInt64 _ _, writable_ofUInt64 _ _, writable_ofUInt64 _ _, writable_ofUInt64 _ _,
    s.ruleDefaults.writable_toJson depth, writable_width _ depth, List.forall_mem_nil _⟩

end Settings

end ReactiveRules
