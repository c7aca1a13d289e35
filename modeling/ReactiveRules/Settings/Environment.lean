import ReactiveRules.Settings.Basic
import ReactiveRules.Text.Blank
import ReactiveRules.Text.Whole

/-!
# `Settings/Environment.lean` — settings from environment variables

Ten settings can be given as environment variables. The text of a variable is a whole number of the
setting's range, with blanks around it as it may be; a variable that is not set, or whose text is
anything else, leaves the setting at its default.
-/

set_option autoImplicit false

namespace ReactiveRules

/-- The texts of the environment variables that are set. One whose value is no Unicode text counts as not
set. -/
abbrev Environment := String → Option String

namespace Environment

/-- The whole number that a variable's text writes, if it lies between the bounds. -/
def whole? (env : Environment) (name : String) (low high : Int) : Option Int :=
  (env name).bind fun text => Text.intOfChars? low high (Text.trimChars text.toList)

def uint64 (env : Environment) (name : String) (default : UInt64) : UInt64 :=
  match env.whole? name 0 (UInt64.size - 1) with
  | some n => UInt64.ofNat n.toNat
  | none => default

def int64 (env : Environment) (name : String) (default : Int64) : Int64 :=
  match env.whole? name Int64.minValue.toInt Int64.maxValue.toInt with
  | some n => Int64.ofInt n
  | none => default

def int32 (env : Environment) (name : String) (default : Int32) : Int32 :=
  match env.whole? name Int32.minValue.toInt Int32.maxValue.toInt with
  | some n => Int32.ofInt n
  | none => default

end Environment

/-- The settings that the environment gives; the others have their defaults. -/
def Settings.ofEnvironment (env : Environment) : Settings :=
  let d : Settings := {}
  { hysteresis := env.uint64 "TWIN_RULES_HYSTERESIS_MS" d.hysteresis
    housekeepingInterval :=
      env.uint64 "TWIN_RULES_HOUSEKEEPING_INTERVAL_MS" d.housekeepingInterval
    dispatchWorkers := env.uint64 "TWIN_RULES_DISPATCH_WORKERS" d.dispatchWorkers
    historySize := env.uint64 "TWIN_RULES_HISTORY_SIZE" d.historySize
    factWidth := env.uint64 "TWIN_RULES_FACT_MAX_VALUE_LEN" d.factWidth
    ruleDefaults :=
      { priority := env.int32 "TWIN_RULES_DEFAULT_PRIORITY" d.ruleDefaults.priority
        executionTimeout :=
          env.uint64 "TWIN_RULES_DEFAULT_EXECUTION_TIMEOUT_MS" d.ruleDefaults.executionTimeout
        refractoryPeriod :=
          env.uint64 "TWIN_RULES_DEFAULT_REFRACTORY_PERIOD_MS" d.ruleDefaults.refractoryPeriod
        factDelay := env.int64 "TWIN_RULES_DEFAULT_VALID_DELAY_MS" d.ruleDefaults.factDelay
        factUntil := env.int64 "TWIN_RULES_DEFAULT_VALID_UNTIL_MS" d.ruleDefaults.factUntil } }

end ReactiveRules
