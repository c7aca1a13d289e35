import ReactiveRules.Text.Blank
import ReactiveRules.Text.Whole

/-!
# `Proofs/Text/Whole.lean` — which texts are whole numbers

`Text.intOfChars?` looks at the first character and goes on from there. What it comes to is said here without it:
`Spells` is the language of whole numbers, and **a trimmed text is read as a number just if it is a text of that
number with blanks around it, and the number lies between the bounds** (`intOfChars?_trimChars_iff`). The decimal
text that a number is written as is one of its texts (`spells_toString`).

No text of a number has a blank in it, so what is trimmed away are all the blanks and nothing else.
-/

set_option autoImplicit false

namespace ReactiveRules

/-! ## Digits -/

namespace Decimal

theorem isDigit_eq (c : Char) : isDigit c = c.isDigit := rfl

theorem isDigit_of_mem {n : Nat} {c : Char} (h : c ∈ Nat.toDigits 10 n) : isDigit c = true :=
  (isDigit_eq c).trans (Nat.isDigit_of_mem_toDigits (by decide) (by decide) h)

theorem natOfDigits_toDigits (n : Nat) : natOfDigits (Nat.toDigits 10 n) = n :=
  Nat.ofDigitChars_ten_toDigits

end Decimal

namespace Text

variable {cs ds : List Char} {n : Nat} {v low high : Int} {signed : Bool}

/-- These are ASCII digits, at least one, and the decimal number that they write is `n`. -/
structure Digits (ds : List Char) (n : Nat) : Prop where
  nonempty : ds ≠ []
  digit : ∀ c ∈ ds, c.isDigit = true
  value : Nat.ofDigitChars 10 ds 0 = n

theorem natOfChars?_iff : natOfChars? ds = some n ↔ Digits ds n := by
  have hguard : (!ds.isEmpty && ds.all Decimal.isDigit) = true ↔
      ds ≠ [] ∧ ∀ c ∈ ds, c.isDigit = true := by
    rw [Bool.and_eq_true, Bool.not_eq_true', List.isEmpty_eq_false_iff, List.all_eq_true]
    rfl
  unfold natOfChars?
  rw [Option.ite_none_right_eq_some, hguard, Option.some_inj]
  exact ⟨fun ⟨⟨hne, hds⟩, hn⟩ => ⟨hne, hds, hn⟩, fun h => ⟨⟨h.nonempty, h.digit⟩, h.value⟩⟩

theorem digits_toDigits (n : Nat) : Digits (Nat.toDigits 10 n) n :=
  ⟨Nat.toDigits_ne_nil, fun _ => Decimal.isDigit_of_mem, Decimal.natOfDigits_toDigits n⟩

/-! ## Whole numbers -/

/-- The texts of a whole number: digits, perhaps with a sign in front. Only signed numbers have texts with a
minus sign. -/
inductive Spells (signed : Bool) : List Char → Int → Prop
  | plain {ds : List Char} {n : Nat} (h : Digits ds n) : Spells signed ds n
  | plus {ds : List Char} {n : Nat} (h : Digits ds n) : Spells signed ('+' :: ds) n
  | minus {ds : List Char} {n : Nat} (hsigned : signed = true) (h : Digits ds n) :
      Spells signed ('-' :: ds) (-n)

theorem Digits.head_ne {c : Char} {rest : List Char} (h : Digits (c :: rest) n) : c ≠ '+' ∧ c ≠ '-' := by
  have hc : c.isDigit = true := h.digit c List.mem_cons_self
  constructor <;>
  · rintro rfl
    cases hc

/-- The number that the characters write, however large it is. -/
def unbounded? (signed : Bool) : List Char → Option Int
  | '+' :: ds => (natOfChars? ds).map Int.ofNat
  | '-' :: ds => if signed then (natOfChars? ds).map fun n : Nat => -(n : Int) else none
  | ds => (natOfChars? ds).map Int.ofNat

theorem intOfChars?_eq (low high : Int) (cs : List Char) : intOfChars? low high cs =
    (unbounded? (decide (low < 0)) cs).filter fun v => decide (low ≤ v) && decide (v ≤ high) := by
  fun_cases unbounded? (decide (low < 0)) cs with
  | case1 ds => cases h : natOfChars? ds <;> simp [intOfChars?, h, Option.filter]
  | case2 ds hneg =>
    have hlow : low < 0 := of_decide_eq_true hneg
    cases h : natOfChars? ds <;> simp [intOfChars?, h, hlow, Option.filter]
  | case3 ds hneg =>
    have hlow : ¬low < 0 := fun h => hneg (decide_eq_true h)
    simp [intOfChars?, hlow]
  | case4 hplus hminus =>
    cases h : natOfChars? cs <;> simp [intOfChars?, h, Option.filter]

theorem unbounded?_iff : unbounded? signed cs = some v ↔ Spells signed cs v := by
  constructor
  · intro h
    unfold unbounded? at h
    split at h
    · obtain ⟨n, hn, rfl⟩ := Option.map_eq_some_iff.mp h
      exact .plus (natOfChars?_iff.mp hn)
    · obtain ⟨hsigned, h⟩ := Option.ite_none_right_eq_some.mp h
      obtain ⟨n, hn, rfl⟩ := Option.map_eq_some_iff.mp h
      exact .minus hsigned (natOfChars?_iff.mp hn)
    · obtain ⟨n, hn, rfl⟩ := Option.map_eq_some_iff.mp h
      exact .plain (natOfChars?_iff.mp hn)
  · intro h
    cases h with
    | plain h =>
      -- A sign is no digit, so digits alone are read as they are.
      unfold unbounded?
      split
      · exact absurd rfl h.head_ne.1
      · exact absurd rfl h.head_ne.2
      · rw [natOfChars?_iff.mpr h]
        rfl
    | @plus ds n h =>
      show (natOfChars? ds).map Int.ofNat = _
      rw [natOfChars?_iff.mpr h]
      rfl
    | @minus ds n hsigned h =>
      show (if signed then (natOfChars? ds).map fun n : Nat => -(n : Int) else none) = _
      rw [if_pos hsigned, natOfChars?_iff.mpr h]
      rfl

theorem intOfChars?_iff :
    intOfChars? low high cs = some v ↔ Spells (decide (low < 0)) cs v ∧ low ≤ v ∧ v ≤ high := by
  rw [intOfChars?_eq, Option.filter_eq_some_iff, unbounded?_iff, Bool.and_eq_true, decide_eq_true_iff,
    decide_eq_true_iff]

/-- The decimal text of a number. -/
theorem toList_toString (n : Int) : (toString n).toList =
    if n < 0 then '-' :: Nat.toDigits 10 n.natAbs else Nat.toDigits 10 n.natAbs := by
  cases n with
  | ofNat n => exact Nat.toList_repr
  | negSucc n =>
    rw [if_pos (Int.negSucc_lt_zero n)]
    show ("-" ++ (n + 1).repr).toList = _
    rw [String.toList_append, Nat.toList_repr]
    rfl

theorem spells_toString (h : signed = true ∨ 0 ≤ v) : Spells signed (toString v).toList v := by
  rw [toList_toString]
  split
  · next hneg =>
    have hsigned : signed = true := h.resolve_right (Int.not_le.mpr hneg)
    have hv : v = -(v.natAbs : Int) := by omega
    rw [hv, Int.natAbs_neg, Int.natAbs_natCast]
    exact .minus hsigned (digits_toDigits _)
  · next hpos =>
    have hv : v = v.natAbs := by omega
    rw [hv, Int.natAbs_natCast]
    exact .plain (digits_toDigits _)

/-! ## Blanks around a text -/

/-- Nothing but blanks. -/
def Blanks (cs : List Char) : Prop := ∀ c ∈ cs, isBlank c = true

theorem isBlankText_iff {s : String} : isBlankText s = true ↔ Blanks s.toList := List.all_eq_true

theorem not_isBlank_of_isDigit {c : Char} (h : c.isDigit = true) : isBlank c = false := by
  obtain ⟨hlow, hhigh⟩ : 48 ≤ c.toNat ∧ c.toNat ≤ 57 := Char.isDigit_iff_toNat.mp h
  simp only [isBlank, inRanges, blankRanges, List.any_cons, List.any_nil, Bool.or_false,
    Bool.or_eq_false_iff, Bool.and_eq_false_imp, decide_eq_true_eq, decide_eq_false_iff_not, Nat.not_le]
  omega

theorem Digits.not_isBlank (h : Digits ds n) : ∀ c ∈ ds, isBlank c = false :=
  fun c hc => not_isBlank_of_isDigit (h.digit c hc)

theorem Spells.not_isBlank (h : Spells signed cs v) : ∀ c ∈ cs, isBlank c = false := by
  cases h with
  | plain h => exact h.not_isBlank
  | plus h => exact List.forall_mem_cons.mpr ⟨rfl, h.not_isBlank⟩
  | minus _ h => exact List.forall_mem_cons.mpr ⟨rfl, h.not_isBlank⟩

theorem Spells.nonempty (h : Spells signed cs v) : cs ≠ [] := by
  cases h with
  | plain h => exact h.nonempty
  | plus h => exact List.cons_ne_nil _ _
  | minus _ h => exact List.cons_ne_nil _ _

theorem dropWhile_blanks {before rest : List Char} (hbefore : Blanks before)
    (hrest : ∀ c ∈ rest.head?, isBlank c = false) : (before ++ rest).dropWhile isBlank = rest := by
  rw [List.dropWhile_append_of_pos hbefore]
  cases rest with
  | nil => rfl
  | cons c rest => rw [List.dropWhile_cons_of_neg (by rw [hrest c rfl]; exact Bool.false_ne_true)]

/-- The blanks around a text without blanks are what is trimmed away. -/
theorem trimChars_append {before after : List Char} (hbefore : Blanks before) (hafter : Blanks after)
    (hne : cs ≠ []) (hcs : ∀ c ∈ cs, isBlank c = false) : trimChars (before ++ cs ++ after) = cs := by
  have hfront : (before ++ (cs ++ after)).dropWhile isBlank = cs ++ after := by
    refine dropWhile_blanks hbefore fun c hc => hcs c (List.mem_of_mem_head? ?_)
    rwa [List.head?_append, Option.or_of_isSome (List.isSome_head?.mpr hne)] at hc
  have hback : (after.reverse ++ cs.reverse).dropWhile isBlank = cs.reverse := by
    refine dropWhile_blanks (fun c hc => hafter c (List.mem_reverse.mp hc)) fun c hc => ?_
    exact hcs c (List.mem_reverse.mp (List.mem_of_mem_head? hc))
  unfold trimChars
  rw [List.append_assoc, hfront, List.reverse_append, hback, List.reverse_reverse]

theorem exists_trimmed (cs : List Char) : ∃ before after, Blanks before ∧ Blanks after ∧
    cs = before ++ trimChars cs ++ after := by
  have hblanks : ∀ ds : List Char, Blanks (ds.takeWhile isBlank) :=
    fun _ => List.all_eq_true.mp List.all_takeWhile
  let rest := cs.dropWhile isBlank
  refine ⟨cs.takeWhile isBlank, (rest.reverse.takeWhile isBlank).reverse, hblanks _,
    fun c hc => hblanks _ c (List.mem_reverse.mp hc), ?_⟩
  have hrest : rest = (rest.reverse.dropWhile isBlank).reverse ++ (rest.reverse.takeWhile isBlank).reverse := by
    rw [← List.reverse_append, List.takeWhile_append_dropWhile, List.reverse_reverse]
  calc cs = cs.takeWhile isBlank ++ rest := List.takeWhile_append_dropWhile.symm
    _ = cs.takeWhile isBlank ++ (trimChars cs ++ (rest.reverse.takeWhile isBlank).reverse) := by
      rw [trimChars, ← hrest]
    _ = _ := (List.append_assoc _ _ _).symm

/-- **A number is read from just its texts, with blanks around them, if it lies between the bounds.** -/
theorem intOfChars?_trimChars_iff : intOfChars? low high (trimChars cs) = some v ↔
    (∃ before text after, Blanks before ∧ Spells (decide (low < 0)) text v ∧ Blanks after ∧
      cs = before ++ text ++ after) ∧ low ≤ v ∧ v ≤ high := by
  rw [intOfChars?_iff]
  refine and_congr_left fun _ => ⟨fun h => ?_, ?_⟩
  · obtain ⟨before, after, hbefore, hafter, hcs⟩ := exists_trimmed cs
    exact ⟨before, trimChars cs, after, hbefore, h, hafter, hcs⟩
  · rintro ⟨before, text, after, hbefore, h, hafter, rfl⟩
    rwa [trimChars_append hbefore hafter h.nonempty h.not_isBlank]

/-- A plus sign and leading zeros do no harm; a minus sign does where there are no negative numbers. -/
example : intOfChars? 0 9 (trimChars ['\u3000', '+', '0', '7', '\n']) = some 7 ∧
    intOfChars? (-9) 9 ['-', '0'] = some 0 ∧ intOfChars? 0 9 ['-', '0'] = none := by decide

end Text

end ReactiveRules
