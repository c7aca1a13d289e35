/-!
# `Settings/Basic.lean` — the settings of an engine

Times are milliseconds. `Settings.check` names the first setting that an engine cannot work with.
-/

set_option autoImplicit false

namespace ReactiveRules

/-- What a rule takes that was registered without a definition of its own. -/
structure RuleDefaults where
  priority : Int32 := 100
  evaluationDelay : UInt64 := 0
  executionDelay : UInt64 := 0
  refractoryPeriod : UInt64 := 0
  parallel : Bool := false
  clearFacts : Bool := false
  /-- The deadline of an action; `0` for none. -/
  executionTimeout : UInt64 := 0
  factDelay : Int64 := 0
  /-- The age at which a fact expires; negative for never. -/
  factUntil : Int64 := -1
  deriving DecidableEq, Repr, Inhabited

/-- The settings of an engine. -/
structure Settings where
  /-- A trigger accepted less than this long ago is not accepted again. -/
  hysteresis : UInt64 := 1000
  housekeepingInterval : UInt64 := 5000
  dispatchWorkers : UInt64 := 2
  historySize : UInt64 := 1000
  ruleDefaults : RuleDefaults := {}
  /-- The characters of a fact's value that notices show. -/
  factWidth : UInt64 := 64
  deriving DecidableEq, Repr, Inhabited

/-- A setting that an engine cannot work with. -/
structure SettingsError where
  field : String
  reason : String
  deriving DecidableEq, Repr, Inhabited

def SettingsError.message (e : SettingsError) : String :=
  "invalid configuration for \x60" ++ e.field ++ "\x60: " ++ e.reason

namespace Settings

/-- The first setting that an engine cannot work with, if there is one. -/
def check (s : Settings) : Except SettingsError Unit :=
  if s.housekeepingInterval == 0 then
    .error ⟨"housekeeping_interval_ms", "must be greater than zero"⟩
  else if s.dispatchWorkers == 0 then
    .error ⟨"dispatch_workers", "must be greater than zero"⟩
  else if s.ruleDefaults.factUntil < -1 then
    .error ⟨"rule_defaults.valid_until_ms", "must be -1 (never expires) or non-negative"⟩
  else .ok ()

end Settings

end ReactiveRules
