import ReactiveRules.Script.Value

/-!
# `Proofs/Script/Conversion.lean` — into scripts and back

Facts, arguments and results are JSON values outside a script and script values inside it. `Corresponds`
says which of the two stand for the same: `null` and the empty value, an integer and the same integer, a
double and the same double even if it is integral, an array and the tuple of what stands for its items.

**The conversions are this correspondence, read in the two directions** (`Value.conversions_inverse`), so
each undoes the other wherever there is a counterpart at all. A JSON value has one if there is no object in
it and all its integers fit 64 bits (`Json.isPlain`); a script value, if all its doubles are finite. Nothing
else comes back as it was, because whatever the conversions give has a counterpart.
-/

set_option autoImplicit false

namespace ReactiveRules

/-! ## Values that have a counterpart -/

namespace Json

mutual

/-- Is the value one of `null`, truth values, integers of 64 bits, finite doubles and texts, or an array of
such values? -/
def isPlain : Json → Bool
  | .null | .bool _ | .str _ => true
  | .int n => Int64.minValue.toInt ≤ n && n ≤ Int64.maxValue.toInt
  | .float x => x.isFinite
  | .arr items => arePlain items
  | .obj _ => false

def arePlain : List Json → Bool
  | [] => true
  | item :: rest => item.isPlain && arePlain rest

end

end Json

namespace Script.Value

mutual

/-- Are all doubles in the value finite? -/
def isFinite : Value → Bool
  | .float x => x.isFinite
  | .tuple vs => areFinite vs
  | .text _ | .int _ | .bool _ | .empty => true

def areFinite : List Value → Bool
  | [] => true
  | v :: rest => v.isFinite && areFinite rest

end

mutual

/-- A JSON value and the script value that stands for the same. -/
inductive Corresponds : Json → Value → Prop
  | null : Corresponds .null .empty
  | bool (b : Bool) : Corresponds (.bool b) (.bool b)
  | int (n : Int64) : Corresponds (.int n.toInt) (.int n)
  | float {x : Float} (h : x.isFinite = true) : Corresponds (.float x) (.float x)
  | str (s : String) : Corresponds (.str s) (.text s)
  | arr {items : List Json} {vs : List Value} (h : CorrespondAll items vs) :
      Corresponds (.arr items) (.tuple vs)

/-- As many of both, one standing for the other in their order. -/
inductive CorrespondAll : List Json → List Value → Prop
  | nil : CorrespondAll [] []
  | cons {item : Json} {v : Value} {items : List Json} {vs : List Value} (h : Corresponds item v)
      (hs : CorrespondAll items vs) : CorrespondAll (item :: items) (v :: vs)

end

/-! ## Integers -/

/-- An integer of 64 bits comes back as the number it is. -/
theorem toInt_ofInt {n : Int} (h : (Json.int n).isPlain = true) : (Int64.ofInt n).toInt = n := by
  have hbounds := Bool.and_eq_true_iff.mp h
  have hlow : Int64.minValue.toInt ≤ n := of_decide_eq_true hbounds.1
  have hhigh : n ≤ Int64.maxValue.toInt := of_decide_eq_true hbounds.2
  exact Int64.toInt_ofInt_of_le hlow (Int.lt_add_one_of_le hhigh)

theorem ofInt_plain {n : Int} (h : (Json.int n).isPlain = true) : ofInt n = .int (Int64.ofInt n) :=
  if_pos h

theorem isPlain_toInt (n : Int64) : (Json.int n.toInt).isPlain = true :=
  Bool.and_eq_true_iff.mpr
    ⟨decide_eq_true n.le_toInt, decide_eq_true (Int.le_of_lt_add_one n.toInt_lt)⟩

/-! ## What the conversions give -/

-- the inductions go with the value, with all items of an array at once
mutual

theorem corresponds_ofJson : ∀ {j : Json}, j.isPlain = true → Corresponds j (ofJson j)
  | .null, _ => .null
  | .bool b, _ => .bool b
  | .str s, _ => .str s
  | .float _, h => .float h
  | .int n, h => by
    have hint := Corresponds.int (Int64.ofInt n)
    rw [toInt_ofInt h] at hint
    rw [ofJson, ofInt_plain h]
    exact hint
  | .arr _, h => .arr (correspondAll_ofJsonItems h)
  | .obj _, h => Bool.noConfusion h

theorem correspondAll_ofJsonItems :
    ∀ {items : List Json}, Json.arePlain items = true → CorrespondAll items (ofJsonItems items)
  | [], _ => .nil
  | _ :: _, h =>
    have hboth := Bool.and_eq_true_iff.mp h
    .cons (corresponds_ofJson hboth.1) (correspondAll_ofJsonItems hboth.2)

end

mutual

theorem corresponds_toJson : ∀ {v : Value}, v.isFinite = true → Corresponds v.toJson v
  | .text s, _ => .str s
  | .float x, h => by
    have hx : x.isFinite = true := h
    rw [toJson, if_pos hx]
    exact .float hx
  | .int n, _ => .int n
  | .bool b, _ => .bool b
  | .tuple _, h => .arr (correspondAll_toJsonItems h)
  | .empty, _ => .null

theorem correspondAll_toJsonItems :
    ∀ {vs : List Value}, areFinite vs = true → CorrespondAll (toJsonItems vs) vs
  | [], _ => .nil
  | _ :: _, h =>
    have hboth := Bool.and_eq_true_iff.mp h
    .cons (corresponds_toJson hboth.1) (correspondAll_toJsonItems hboth.2)

end

mutual

/-- Whatever comes out of a script has a counterpart: a double that is not finite becomes `null`. -/
theorem isPlain_toJson : ∀ v : Value, v.toJson.isPlain = true
  | .text _ => rfl
  | .float x => by
    rw [toJson]
    split
    · next h => exact h
    · rfl
  | .int n => isPlain_toInt n
  | .bool _ => rfl
  | .tuple vs => arePlain_toJsonItems vs
  | .empty => rfl

theorem arePlain_toJsonItems : ∀ vs : List Value, Json.arePlain (toJsonItems vs) = true
  | [] => rfl
  | v :: vs => Bool.and_eq_true_iff.mpr ⟨isPlain_toJson v, arePlain_toJsonItems vs⟩

end

/-! ## What corresponds -/

mutual

theorem Corresponds.ofJson_eq : ∀ {j : Json} {v : Value}, Corresponds j v → ofJson j = v
  | _, _, .null => rfl
  | _, _, .bool _ => rfl
  | _, _, .int n => by rw [ofJson, ofInt_plain (isPlain_toInt n), Int64.ofInt_toInt]
  | _, _, .float _ => rfl
  | _, _, .str _ => rfl
  | _, _, .arr h => congrArg Value.tuple h.ofJsonItems_eq

theorem CorrespondAll.ofJsonItems_eq :
    ∀ {items : List Json} {vs : List Value}, CorrespondAll items vs → ofJsonItems items = vs
  | _, _, .nil => rfl
  | _, _, .cons h hs => by rw [ofJsonItems, h.ofJson_eq, hs.ofJsonItems_eq]

end

mutual

theorem Corresponds.toJson_eq : ∀ {j : Json} {v : Value}, Corresponds j v → v.toJson = j
  | _, _, .null => rfl
  | _, _, .bool _ => rfl
  | _, _, .int _ => rfl
  | _, _, .float h => if_pos h
  | _, _, .str _ => rfl
  | _, _, .arr h => congrArg Json.arr h.toJsonItems_eq

theorem CorrespondAll.toJsonItems_eq :
    ∀ {items : List Json} {vs : List Value}, CorrespondAll items vs → toJsonItems vs = items
  | _, _, .nil => rfl
  | _, _, .cons h hs => by rw [toJsonItems, h.toJson_eq, hs.toJsonItems_eq]

end

mutual

theorem Corresponds.isFinite : ∀ {j : Json} {v : Value}, Corresponds j v → v.isFinite = true
  | _, _, .null => rfl
  | _, _, .bool _ => rfl
  | _, _, .int _ => rfl
  | _, _, .float h => h
  | _, _, .str _ => rfl
  | _, _, .arr h => h.areFinite

theorem CorrespondAll.areFinite :
    ∀ {items : List Json} {vs : List Value}, CorrespondAll items vs → areFinite vs = true
  | _, _, .nil => rfl
  | _, _, .cons h hs => Bool.and_eq_true_iff.mpr ⟨h.isFinite, hs.areFinite⟩

end

theorem Corresponds.isPlain {j : Json} {v : Value} (h : Corresponds j v) : j.isPlain = true := by
  rw [← h.toJson_eq]
  exact isPlain_toJson v

/-- **The conversions are inverse to each other, and just where values correspond.** A JSON value comes back
from a script as it was if and only if it is plain, and a script value from outside if and only if its
doubles are finite. What corresponds to a plain value is its conversion and nothing else, in both
directions. -/
theorem conversions_inverse :
    (∀ j : Json, (ofJson j).toJson = j ↔ j.isPlain = true) ∧
    (∀ v : Value, ofJson v.toJson = v ↔ v.isFinite = true) ∧
    ∀ (j : Json) (v : Value), (Corresponds j v ↔ j.isPlain = true ∧ ofJson j = v) ∧
      (Corresponds j v ↔ v.isFinite = true ∧ v.toJson = j) := by
  refine ⟨fun j => ⟨fun h => ?_, fun h => ?_⟩, fun v => ⟨fun h => ?_, fun h => ?_⟩,
    fun j v => ⟨⟨fun h => ?_, fun h => ?_⟩, fun h => ?_, fun h => ?_⟩⟩
  · rw [← h]
    exact isPlain_toJson _
  · exact (corresponds_ofJson h).toJson_eq
  · have hc := corresponds_ofJson (isPlain_toJson v)
    rw [h] at hc
    exact hc.isFinite
  · exact (corresponds_toJson h).ofJson_eq
  · exact ⟨h.isPlain, h.ofJson_eq⟩
  · exact h.2 ▸ corresponds_ofJson h.1
  · exact ⟨h.isFinite, h.toJson_eq⟩
  · exact h.2 ▸ corresponds_toJson h.1

/-- Arrays keep their shape, however deep; an integer that does not fit 64 bits becomes a double. -/
example :
    ofJson (.arr [.arr [], .arr [.null, .int (-1)], .int (2 ^ 63)]) =
      .tuple [.tuple [], .tuple [.empty, .int (-1)], .float (Float.ofInt (2 ^ 63))] := rfl

end Script.Value

end ReactiveRules
