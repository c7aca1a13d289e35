import ReactiveRules.Facts.Basic
import ReactiveRules.Facts.Validity

/-!
# `Facts/Memory.lean` — the facts a rule remembers

A memory holds one record for each name, the latest. `validFacts` are the facts that count at a
time; a record that has not settled yet hides an older one of its name all the same. Sweeping
removes expired records, which can never count again.
-/

set_option autoImplicit false

namespace ReactiveRules

/-- A recorded fact: where and when it was recorded, and how long it counts. -/
structure FactRecord where
  fact : Fact
  source : String
  created : Nat
  validity : Validity
  deriving Inhabited

namespace FactRecord

def expired (r : FactRecord) (now : Nat) : Bool := r.validity.expiredAt (now - r.created)

def valid (r : FactRecord) (now : Nat) : Bool := r.validity.validAt (now - r.created)

end FactRecord

/-- The latest record of each name. -/
structure FactMemory where
  records : List FactRecord := []
  deriving Inhabited

namespace FactMemory

def empty : FactMemory := {}

def get? (m : FactMemory) (name : String) : Option FactRecord :=
  m.records.find? (·.fact.name == name)

/-- Records a fact; it takes the place of one with the same name. -/
def record (m : FactMemory) (now : Nat) (source : String) (fact : Fact) (validity : Validity) :
    FactMemory :=
  ⟨m.records.filter (fun r => r.fact.name != fact.name) ++ [⟨fact, source, now, validity⟩]⟩

/-- The facts that count now. -/
def validFacts (m : FactMemory) (now : Nat) : List Fact :=
  (m.records.filter (·.valid now)).map (·.fact)

/-- The value of a fact that counts now. -/
def validValue? (m : FactMemory) (now : Nat) (name : String) : Option Json :=
  ((m.get? name).filter (·.valid now)).map (·.fact.value)

def sweep (m : FactMemory) (now : Nat) : FactMemory :=
  ⟨m.records.filter fun r => !r.expired now⟩

def size (m : FactMemory) : Nat := m.records.length

def sweepCount (m : FactMemory) (now : Nat) : Nat := m.size - (m.sweep now).size

end FactMemory

end ReactiveRules
