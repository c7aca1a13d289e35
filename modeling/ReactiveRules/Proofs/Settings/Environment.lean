import Mathlib.Logic.Function.Basic
import ReactiveRules.Proofs.Text.Whole
import ReactiveRules.Settings.Environment

/-!
# `Proofs/Settings/Environment.lean` — the variables that give settings

Ten settings have a variable (`Environment.Variable`), and each is kept in a word of its own range. **Settings
written into their variables are read back, whatever blanks stand around the texts; a setting is what its own
variable gives, and its default just if that gives nothing; no other variable counts for it**
(`Environment.settings_by_variables`).

What a variable gives (`Variable.Gives`) is said by the language of whole numbers (`Text.Spells`) and the range,
and not by how a text is read. All ten are read alike, so one equation carries everything
(`get_ofEnvironment`): the setting is the number that was read, or else its default.
-/

set_option autoImplicit false

namespace ReactiveRules.Environment

/-! ## Words -/

/-- The words that settings are kept in. -/
inductive Word where
  | uint64
  | int32
  | int64
  deriving DecidableEq, Repr

namespace Word

def low : Word → Int
  | uint64 => 0
  | int32 => -2147483648
  | int64 => -9223372036854775808

def high : Word → Int
  | uint64 => 18446744073709551615
  | int32 => 2147483647
  | int64 => 9223372036854775807

/-- Has the word negative numbers? -/
def signed : Word → Bool
  | uint64 => false
  | int32 | int64 => true

theorem decide_low_neg (w : Word) : decide (w.low < 0) = w.signed := by
  cases w <;> rfl

theorem signed_or_nonneg {w : Word} {n : Int} (h : w.low ≤ n) : w.signed = true ∨ 0 ≤ n := by
  cases w with
  | uint64 => exact .inr h
  | int32 | int64 => exact .inl rfl

end Word

theorem bounds_of_whole? {env : Environment} {name : String} {low high n : Int}
    (h : env.whole? name low high = some n) : low ≤ n ∧ n ≤ high := by
  obtain ⟨text, -, h⟩ := Option.bind_eq_some_iff.mp h
  exact (Text.intOfChars?_iff.mp h).2

section Reading

variable (env : Environment) (name : String)

/-- What is read is kept as it is by a word that keeps the numbers of its range. -/
theorem value_of_whole? {α : Type} (w : Word) (ofInt : Int → α) (value : α → Int)
    (hkeeps : ∀ n, w.low ≤ n → n ≤ w.high → value (ofInt n) = n) (default : α) :
    value (match env.whole? name w.low w.high with
      | some n => ofInt n
      | none => default) = (env.whole? name w.low w.high).getD (value default) := by
  cases h : env.whole? name w.low w.high with
  | none => rfl
  | some n =>
    obtain ⟨hlow, hhigh⟩ := bounds_of_whole? h
    exact hkeeps n hlow hhigh

theorem toNat_uint64 (default : UInt64) : ((env.uint64 name default).toNat : Int) =
    (env.whole? name Word.uint64.low Word.uint64.high).getD default.toNat := by
  have hkeeps : ∀ n, Word.uint64.low ≤ n → n ≤ Word.uint64.high →
      ((UInt64.ofNat n.toNat).toNat : Int) = n := by
    intro n hlow hhigh
    have hsize : n.toNat < UInt64.size := by
      simp only [Word.low, Word.high, UInt64.size] at hlow hhigh ⊢
      omega
    rw [UInt64.toNat_ofNat_of_lt' hsize, Int.toNat_of_nonneg hlow]
  exact value_of_whole? env name .uint64 (fun n => UInt64.ofNat n.toNat) (fun n => n.toNat) hkeeps default

theorem toInt_int64 (default : Int64) : (env.int64 name default).toInt =
    (env.whole? name Word.int64.low Word.int64.high).getD default.toInt :=
  value_of_whole? env name .int64 Int64.ofInt Int64.toInt (fun _ hlow hhigh =>
    Int64.toInt_ofInt_of_le hlow (Int.lt_of_le_sub_one hhigh)) default

theorem toInt_int32 (default : Int32) : (env.int32 name default).toInt =
    (env.whole? name Word.int32.low Word.int32.high).getD default.toInt :=
  value_of_whole? env name .int32 Int32.ofInt Int32.toInt (fun _ hlow hhigh =>
    Int32.toInt_ofInt_of_le hlow (Int.lt_of_le_sub_one hhigh)) default

end Reading

/-! ## Variables -/

/-- The settings that have a variable. -/
inductive Variable where
  | hysteresis
  | housekeepingInterval
  | dispatchWorkers
  | historySize
  | factWidth
  | priority
  | executionTimeout
  | refractoryPeriod
  | factDelay
  | factUntil
  deriving DecidableEq, Repr

namespace Variable

def name : Variable → String
  | hysteresis => "TWIN_RULES_HYSTERESIS_MS"
  | housekeepingInterval => "TWIN_RULES_HOUSEKEEPING_INTERVAL_MS"
  | dispatchWorkers => "TWIN_RULES_DISPATCH_WORKERS"
  | historySize => "TWIN_RULES_HISTORY_SIZE"
  | factWidth => "TWIN_RULES_FACT_MAX_VALUE_LEN"
  | priority => "TWIN_RULES_DEFAULT_PRIORITY"
  | executionTimeout => "TWIN_RULES_DEFAULT_EXECUTION_TIMEOUT_MS"
  | refractoryPeriod => "TWIN_RULES_DEFAULT_REFRACTORY_PERIOD_MS"
  | factDelay => "TWIN_RULES_DEFAULT_VALID_DELAY_MS"
  | factUntil => "TWIN_RULES_DEFAULT_VALID_UNTIL_MS"

/-- The word that the setting is kept in. -/
def word : Variable → Word
  | priority => .int32
  | factDelay | factUntil => .int64
  | hysteresis | housekeepingInterval | dispatchWorkers | historySize | factWidth | executionTimeout
  | refractoryPeriod => .uint64

/-- The value of the setting. -/
def get : Variable → Settings → Int
  | hysteresis, s => s.hysteresis.toNat
  | housekeepingInterval, s => s.housekeepingInterval.toNat
  | dispatchWorkers, s => s.dispatchWorkers.toNat
  | historySize, s => s.historySize.toNat
  | factWidth, s => s.factWidth.toNat
  | priority, s => s.ruleDefaults.priority.toInt
  | executionTimeout, s => s.ruleDefaults.executionTimeout.toNat
  | refractoryPeriod, s => s.ruleDefaults.refractoryPeriod.toNat
  | factDelay, s => s.ruleDefaults.factDelay.toInt
  | factUntil, s => s.ruleDefaults.factUntil.toInt

/-- The variable is set to a text of the number, with blanks around it as it may be, and the number is in the
range of the setting. -/
def Gives (v : Variable) (env : Environment) (n : Int) : Prop :=
  ∃ text, env v.name = some text ∧
    (∃ before number after, Text.Blanks before ∧ Text.Spells v.word.signed number n ∧ Text.Blanks after ∧
      text.toList = before ++ number ++ after) ∧
    v.word.low ≤ n ∧ n ≤ v.word.high

theorem name_injective : Function.Injective name := by
  intro v w h
  cases v <;> cases w <;> simp [name] at h ⊢

theorem whole?_iff {v : Variable} {env : Environment} {n : Int} :
    env.whole? v.name v.word.low v.word.high = some n ↔ v.Gives env n := by
  unfold whole? Gives
  simp only [Option.bind_eq_some_iff, Text.intOfChars?_trimChars_iff, Word.decide_low_neg]

/-- A setting is the number that is read from its variable, or else its default. -/
theorem get_ofEnvironment (env : Environment) (v : Variable) : v.get (Settings.ofEnvironment env) =
    (env.whole? v.name v.word.low v.word.high).getD (v.get {}) := by
  -- Two names exchanged, or a word that is not the setting's own, would fail in their cases.
  cases v with
  | hysteresis | housekeepingInterval | dispatchWorkers | historySize | factWidth | executionTimeout
  | refractoryPeriod => exact toNat_uint64 env _ _
  | priority => exact toInt_int32 env _ _
  | factDelay | factUntil => exact toInt_int64 env _ _

theorem get_bounds (v : Variable) (s : Settings) : v.word.low ≤ v.get s ∧ v.get s ≤ v.word.high := by
  have huint64 : ∀ n : UInt64, Word.uint64.low ≤ (n.toNat : Int) ∧ (n.toNat : Int) ≤ Word.uint64.high := by
    intro n
    have := n.toNat_lt
    simp only [Word.low, Word.high]
    omega
  have hint64 : ∀ n : Int64, Word.int64.low ≤ n.toInt ∧ n.toInt ≤ Word.int64.high := fun n =>
    ⟨n.le_toInt, n.toInt_le⟩
  have hint32 : ∀ n : Int32, Word.int32.low ≤ n.toInt ∧ n.toInt ≤ Word.int32.high := fun n =>
    ⟨n.le_toInt, n.toInt_le⟩
  cases v with
  | hysteresis | housekeepingInterval | dispatchWorkers | historySize | factWidth | executionTimeout
  | refractoryPeriod => exact huint64 _
  | priority => exact hint32 _
  | factDelay | factUntil => exact hint64 _

end Variable

/-! ## Settings -/

attribute [ext] RuleDefaults Settings

/-- Settings that variables can give: what has no variable has its default. -/
structure Settable (s : Settings) : Prop where
  evaluationDelay : s.ruleDefaults.evaluationDelay = ({} : RuleDefaults).evaluationDelay
  executionDelay : s.ruleDefaults.executionDelay = ({} : RuleDefaults).executionDelay
  parallel : s.ruleDefaults.parallel = ({} : RuleDefaults).parallel
  clearFacts : s.ruleDefaults.clearFacts = ({} : RuleDefaults).clearFacts

theorem settable_ofEnvironment (env : Environment) : Settable (Settings.ofEnvironment env) :=
  ⟨rfl, rfl, rfl, rfl⟩

/-- The variables say all there is to such settings. -/
theorem Settable.eq_of_get {s s' : Settings} (hs : Settable s) (hs' : Settable s')
    (h : ∀ v : Variable, v.get s = v.get s') : s = s' := by
  have huint64 : ∀ {m n : UInt64}, (m.toNat : Int) = n.toNat → m = n := fun h =>
    UInt64.toNat_inj.mp (Int.natCast_inj.mp h)
  obtain ⟨hevaluation, hexecution, hparallel, hclear⟩ := hs
  obtain ⟨hevaluation', hexecution', hparallel', hclear'⟩ := hs'
  have hdefaults : s.ruleDefaults = s'.ruleDefaults := by
    rw [RuleDefaults.ext_iff]
    exact ⟨Int32.toInt_inj.mp (h .priority), hevaluation.trans hevaluation'.symm,
      hexecution.trans hexecution'.symm, huint64 (h .refractoryPeriod), hparallel.trans hparallel'.symm,
      hclear.trans hclear'.symm, huint64 (h .executionTimeout), Int64.toInt_inj.mp (h .factDelay),
      Int64.toInt_inj.mp (h .factUntil)⟩
  rw [Settings.ext_iff]
  exact ⟨huint64 (h .hysteresis), huint64 (h .housekeepingInterval), huint64 (h .dispatchWorkers),
    huint64 (h .historySize), hdefaults, huint64 (h .factWidth)⟩

/-- The variables have the decimal texts of the settings, each with any blanks around it. -/
def Shows (env : Environment) (s : Settings) : Prop :=
  ∀ v : Variable, ∃ before after : String, Text.isBlankText before = true ∧ Text.isBlankText after = true ∧
    env v.name = some (before ++ toString (v.get s) ++ after)

theorem Shows.gives {env : Environment} {s : Settings} (h : Shows env s) (v : Variable) :
    v.Gives env (v.get s) := by
  obtain ⟨before, after, hbefore, hafter, htext⟩ := h v
  have hspells : Text.Spells v.word.signed (toString (v.get s)).toList (v.get s) :=
    Text.spells_toString (Word.signed_or_nonneg (v.get_bounds s).1)
  refine ⟨_, htext, ⟨before.toList, _, after.toList, Text.isBlankText_iff.mp hbefore, hspells,
    Text.isBlankText_iff.mp hafter, ?_⟩, v.get_bounds s⟩
  rw [String.toList_append, String.toList_append]

theorem Variable.get_of_gives {v : Variable} {env : Environment} {n : Int} (h : v.Gives env n) :
    v.get (Settings.ofEnvironment env) = n := by
  rw [get_ofEnvironment, whole?_iff.mpr h, Option.getD_some]

theorem Variable.get_of_not_gives {v : Variable} {env : Environment} (h : ¬∃ n, v.Gives env n) :
    v.get (Settings.ofEnvironment env) = v.get {} := by
  have hnone : env.whole? v.name v.word.low v.word.high = none :=
    Option.eq_none_iff_forall_ne_some.mpr fun n hn => h ⟨n, whole?_iff.mp hn⟩
  rw [get_ofEnvironment, hnone, Option.getD_none]

/-- A variable of another name does not count. -/
theorem Variable.get_update {v : Variable} {name : String} (h : v.name ≠ name) (env : Environment)
    (text? : Option String) : v.get (Settings.ofEnvironment (Function.update env name text?)) =
      v.get (Settings.ofEnvironment env) := by
  rw [get_ofEnvironment, get_ofEnvironment]
  unfold whole?
  rw [Function.update_of_ne h]

/-- **Settings are what their variables give.** Settings whose decimal texts the variables have, with any blanks
around them, are read back. Whatever the environment, a setting without a variable has its default, and one with
a variable has the number that the variable gives, or its default just if the variable gives none: it is not set,
or its text without the blanks is no whole number in the range of the setting. Setting or removing one variable
changes no setting but its own; a variable of any other name changes nothing. -/
theorem settings_by_variables :
    (∀ env s, Settable s → Shows env s → Settings.ofEnvironment env = s) ∧
    (∀ env, Settable (Settings.ofEnvironment env) ∧ ∀ (v : Variable) n,
      v.get (Settings.ofEnvironment env) = n ↔
        v.Gives env n ∨ (¬∃ m, v.Gives env m) ∧ n = v.get {}) ∧
    (∀ env (v : Variable) text?, ∀ w ≠ v,
      w.get (Settings.ofEnvironment (Function.update env v.name text?)) =
        w.get (Settings.ofEnvironment env)) ∧
    ∀ env name text?, (∀ v : Variable, v.name ≠ name) →
      Settings.ofEnvironment (Function.update env name text?) = Settings.ofEnvironment env := by
  refine ⟨fun env s hs hshows => ?_, fun env => ⟨settable_ofEnvironment env, fun v n => ⟨?_, ?_⟩⟩,
    fun env v text? w hne => ?_, fun env name text? hname => ?_⟩
  · exact (settable_ofEnvironment env).eq_of_get hs fun v => v.get_of_gives (hshows.gives v)
  · rintro rfl
    by_cases h : ∃ m, v.Gives env m
    · obtain ⟨m, hm⟩ := h
      rw [Variable.get_of_gives hm]
      exact .inl hm
    · exact .inr ⟨h, Variable.get_of_not_gives h⟩
  · rintro (h | ⟨h, rfl⟩)
    · exact Variable.get_of_gives h
    · exact Variable.get_of_not_gives h
  · exact Variable.get_update (Variable.name_injective.ne hne) env text?
  · exact (settable_ofEnvironment _).eq_of_get (settable_ofEnvironment _) fun v =>
      Variable.get_update (hname v) env text?

/-- All variables set, each with blanks of several kinds around its text. -/
def padded : Environment := fun name =>
  ([("TWIN_RULES_HYSTERESIS_MS", "0"), ("TWIN_RULES_HOUSEKEEPING_INTERVAL_MS", "18446744073709551615"),
    ("TWIN_RULES_DISPATCH_WORKERS", "3"), ("TWIN_RULES_HISTORY_SIZE", "4"),
    ("TWIN_RULES_FACT_MAX_VALUE_LEN", "5"), ("TWIN_RULES_DEFAULT_PRIORITY", "-2147483648"),
    ("TWIN_RULES_DEFAULT_EXECUTION_TIMEOUT_MS", "6"), ("TWIN_RULES_DEFAULT_REFRACTORY_PERIOD_MS", "7"),
    ("TWIN_RULES_DEFAULT_VALID_DELAY_MS", "-8"),
    ("TWIN_RULES_DEFAULT_VALID_UNTIL_MS", "9223372036854775807")].lookup name).map
      fun text => "\u3000" ++ text ++ "\t\n"

theorem padded_read : Settings.ofEnvironment padded =
    { hysteresis := 0, housekeepingInterval := 18446744073709551615, dispatchWorkers := 3, historySize := 4
      factWidth := 5
      ruleDefaults :=
        { priority := -2147483648, executionTimeout := 6, refractoryPeriod := 7, factDelay := -8
          factUntil := 9223372036854775807 } } :=
  settings_by_variables.1 padded _ ⟨rfl, rfl, rfl, rfl⟩ fun v => by
    cases v <;> exact ⟨"\u3000", "\t\n", by decide, by decide, rfl⟩

end ReactiveRules.Environment
