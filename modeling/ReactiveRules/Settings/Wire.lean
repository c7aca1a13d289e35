import ReactiveRules.Json.Fields
import ReactiveRules.Settings.Basic

/-!
# `Settings/Wire.lean` — settings as JSON

Every field may be absent and then has its default; a field of a wrong kind or out of range, `null`
included, makes the whole document unreadable.
-/

set_option autoImplicit false

namespace ReactiveRules

open Json

namespace RuleDefaults

def names : List String :=
  ["priority", "delay_before_evaluation_ms", "delay_before_execute_ms", "refractory_period_ms",
   "parallel_execution", "clear_facts_after_execution", "execution_timeout_ms", "valid_delay_ms",
   "valid_until_ms"]

def toJson (d : RuleDefaults) : Json :=
  object
    [("priority", ofInt32 d.priority),
     ("delay_before_evaluation_ms", ofUInt64 d.evaluationDelay),
     ("delay_before_execute_ms", ofUInt64 d.executionDelay),
     ("refractory_period_ms", ofUInt64 d.refractoryPeriod),
     ("parallel_execution", .bool d.parallel),
     ("clear_facts_after_execution", .bool d.clearFacts),
     ("execution_timeout_ms", ofUInt64 d.executionTimeout),
     ("valid_delay_ms", ofInt64 d.factDelay),
     ("valid_until_ms", ofInt64 d.factUntil)]

def ofJson? (j : Json) : Option RuleDefaults := do
  let fs ← fields? names j
  let d : RuleDefaults := {}
  let priority ← optional? fs "priority" int32? d.priority
  let evaluationDelay ← optional? fs "delay_before_evaluation_ms" uint64? d.evaluationDelay
  let executionDelay ← optional? fs "delay_before_execute_ms" uint64? d.executionDelay
  let refractoryPeriod ← optional? fs "refractory_period_ms" uint64? d.refractoryPeriod
  let parallel ← optional? fs "parallel_execution" bool? d.parallel
  let clearFacts ← optional? fs "clear_facts_after_execution" bool? d.clearFacts
  let executionTimeout ← optional? fs "execution_timeout_ms" uint64? d.executionTimeout
  let factDelay ← optional? fs "valid_delay_ms" int64? d.factDelay
  let factUntil ← optional? fs "valid_until_ms" int64? d.factUntil
  some { priority, evaluationDelay, executionDelay, refractoryPeriod, parallel, clearFacts,
         executionTimeout, factDelay, factUntil }

end RuleDefaults

namespace Settings

def names : List String :=
  ["hysteresis_ms", "housekeeping_interval_ms", "dispatch_workers", "history_size",
   "rule_defaults", "fact_format"]

/-- The JSON value of the width of facts, an object of its own. -/
def widthToJson (n : UInt64) : Json := object [("max_value_len", ofUInt64 n)]

def widthOfJson? (default : UInt64) (j : Json) : Option UInt64 := do
  optional? (← fields? ["max_value_len"] j) "max_value_len" uint64? default

def toJson (s : Settings) : Json :=
  object
    [("hysteresis_ms", ofUInt64 s.hysteresis),
     ("housekeeping_interval_ms", ofUInt64 s.housekeepingInterval),
     ("dispatch_workers", ofUInt64 s.dispatchWorkers),
     ("history_size", ofUInt64 s.historySize),
     ("rule_defaults", s.ruleDefaults.toJson),
     ("fact_format", widthToJson s.factWidth)]

def ofJson? (j : Json) : Option Settings := do
  let fs ← fields? names j
  let d : Settings := {}
  let hysteresis ← optional? fs "hysteresis_ms" uint64? d.hysteresis
  let housekeepingInterval ←
    optional? fs "housekeeping_interval_ms" uint64? d.housekeepingInterval
  let dispatchWorkers ← optional? fs "dispatch_workers" uint64? d.dispatchWorkers
  let historySize ← optional? fs "history_size" uint64? d.historySize
  let ruleDefaults ← optional? fs "rule_defaults" RuleDefaults.ofJson? d.ruleDefaults
  let factWidth ← optional? fs "fact_format" (widthOfJson? d.factWidth) d.factWidth
  some { hysteresis, housekeepingInterval, dispatchWorkers, historySize, ruleDefaults, factWidth }

end Settings

end ReactiveRules
