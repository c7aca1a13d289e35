/-!
# `Text/Ranges.lean` — sets of code points as ranges

A Unicode property is a set of code points, given by its maximal ranges in increasing order. The
tables of this folder are such lists; membership is the only thing asked of them.
-/

set_option autoImplicit false

namespace ReactiveRules.Text

/-- Is the character in one of the ranges? Ends are included. -/
def inRanges (ranges : List (Nat × Nat)) (c : Char) : Bool :=
  ranges.any fun r => r.1 ≤ c.toNat && c.toNat ≤ r.2

end ReactiveRules.Text
