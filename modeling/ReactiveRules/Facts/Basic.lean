import ReactiveRules.Json.Writer

/-!
# `Facts/Basic.lean` — facts

A fact is a named value. Its identity is the name alone: a set of facts holds one of each name, and
adding another of that name changes nothing.
-/

set_option autoImplicit false

namespace ReactiveRules

structure Fact where
  name : String
  value : Json
  deriving Inhabited

namespace Fact

/-- Are the two the same fact? Only the names count. -/
def same (a b : Fact) : Bool := a.name == b.name

/-- The text of a fact's value: a text is itself, everything else its JSON text. -/
def valueText (f : Fact) : String :=
  match f.value with
  | .str s => s
  | v => v.write

/-- The fact as `name=value`, with at most `width` characters of the value. -/
def display (width : Nat) (f : Fact) : String :=
  let cs := f.valueText.toList
  let shown := if cs.length > width then String.ofList (cs.take width) ++ "..." else f.valueText
  f.name ++ "=" ++ shown

/-- Adds a fact to a set of facts, unless it is there already. -/
def insert (f : Fact) (set : List Fact) : List Fact :=
  if set.any (·.same f) then set else set ++ [f]

end Fact

end ReactiveRules
