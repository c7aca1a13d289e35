import ReactiveRules.Rule.Slot

/-!
# `Rule/Desk.lean` — holders and waiters by name

A desk gives out a slot to holders that have names. A waiter that finds the slot held is enlisted;
it is woken by a release, but holds nothing before it has claimed the slot on its own turn. Between
waking and turn it can be aborted, and another one can claim the slot before it.
-/

set_option autoImplicit false

namespace ReactiveRules

/-- A slot, those who hold it, and those who have been woken and not had their turn. -/
structure Desk (ω : Type) where
  slot : Slot ω
  holders : List ω := []
  woken : List ω := []
  deriving Repr, Inhabited

namespace Desk

variable {ω : Type} [DecidableEq ω]

/-- Gives back the slot once in the name of a holder. -/
def release (d : Desk ω) (w : ω) : Desk ω :=
  if w ∈ d.holders then
    let (slot, woken) := d.slot.release
    { slot, holders := d.holders.erase w, woken := d.woken ++ woken }
  else d

/-- Puts a claimed slot into a holder's hands. A holder of that name gives back what it had. -/
def keep (d : Desk ω) (slot : Slot ω) (w : ω) : Desk ω :=
  let d' := { d with slot, holders := d.holders ++ [w] }
  if w ∈ d.holders then d'.release w else d'

def claim? (d : Desk ω) (w : ω) : Option (Desk ω) := d.slot.claim?.map fun slot => d.keep slot w

/-- A waiter's turn: it claims the slot or is enlisted. -/
def turn (d : Desk ω) (w : ω) : Desk ω := (d.claim? w).getD { d with slot := d.slot.enlist w }

def awaits (d : Desk ω) (w : ω) : Bool := w ∈ d.slot.waiting || w ∈ d.woken

/-- Takes a waiter away, enlisted or woken. -/
def abort (d : Desk ω) (w : ω) : Desk ω :=
  { d with slot := d.slot.forget w, woken := d.woken.erase w }

/-- Starts a waiter, in place of one with its name. -/
def wait (d : Desk ω) (w : ω) : Desk ω := (d.abort w).turn w

/-- The turn of one who has been woken. -/
def resume (d : Desk ω) (w : ω) : Desk ω :=
  if w ∈ d.woken then { d with woken := d.woken.erase w }.turn w else d

/-- The turns of all who have been woken, oldest first. -/
def settle (d : Desk ω) : Desk ω := d.woken.foldl resume d

end Desk

end ReactiveRules
