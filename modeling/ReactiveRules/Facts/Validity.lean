/-!
# `Facts/Validity.lean` — how long a fact counts

A recorded fact counts from the age `settle` on and up to, not including, the age `lifetime`.
-/

set_option autoImplicit false

namespace ReactiveRules

/-- The ages at which a fact counts, in milliseconds. -/
structure Validity where
  settle : Nat
  /-- The age at which the fact expires; `none` for never. -/
  lifetime : Option Nat
  deriving DecidableEq, Repr, Inhabited

namespace Validity

/-- A fact that counts at once and for ever. -/
def always : Validity := ⟨0, none⟩

/-- Validity from two settings: a delay below zero is none, a limit below zero is never. -/
def ofSettings (delay limit : Int) : Validity :=
  ⟨delay.toNat, if 0 ≤ limit then some limit.toNat else none⟩

def expiredAt (v : Validity) (age : Nat) : Bool :=
  match v.lifetime with
  | some limit => limit ≤ age
  | none => false

def validAt (v : Validity) (age : Nat) : Bool := !v.expiredAt age && v.settle ≤ age

end Validity

end ReactiveRules
