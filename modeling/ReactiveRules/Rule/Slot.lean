/-!
# `Rule/Slot.lean` — who may run

A run claims the slot of its rule before it does anything and gives it back when it ends. A slot
that is not parallel is held by at most one. Whoever finds it held can enlist; a release wakes all
who are enlisted, oldest first, and each of them has to claim anew or enlist again.
-/

set_option autoImplicit false

namespace ReactiveRules

/-- The slot of a rule, with waiters of a type `ω`. -/
structure Slot (ω : Type) where
  /-- May it be held more than once? -/
  parallel : Bool
  held : Nat := 0
  /-- Those who are enlisted, oldest first. -/
  waiting : List ω := []
  deriving Repr, Inhabited

namespace Slot

variable {ω : Type}

def isOpen (s : Slot ω) : Bool := s.parallel || s.held == 0

/-- Claims the slot, if it is open. -/
def claim? (s : Slot ω) : Option (Slot ω) :=
  if s.isOpen then some { s with held := s.held + 1 } else none

def enlist (s : Slot ω) (w : ω) : Slot ω := { s with waiting := s.waiting ++ [w] }

/-- Gives the slot back; all who are enlisted are woken. -/
def release (s : Slot ω) : Slot ω × List ω :=
  ({ s with held := s.held - 1, waiting := [] }, s.waiting)

def forget [BEq ω] (s : Slot ω) (w : ω) : Slot ω := { s with waiting := s.waiting.erase w }

end Slot

end ReactiveRules
