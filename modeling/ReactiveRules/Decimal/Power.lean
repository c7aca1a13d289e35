/-!
# `Decimal/Power.lean` — powers of two and ten

Doubles are made of powers of two, decimals of powers of ten. Both are natural numbers here.
-/

set_option autoImplicit false

namespace ReactiveRules.Decimal

def twoTo (n : Nat) : Nat := Nat.pow 2 n

def tenTo (n : Nat) : Nat := Nat.pow 10 n

end ReactiveRules.Decimal
