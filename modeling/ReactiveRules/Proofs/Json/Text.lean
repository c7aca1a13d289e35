import Mathlib.Tactic.SplitIfs
import ReactiveRules.Json.Reader
import ReactiveRules.Json.Writer
import ReactiveRules.Proofs.Json.Fields
import ReactiveRules.Proofs.Text.Whole

/-!
# `Proofs/Json/Text.lean` — texts that read back

A reader does not know where the text of a value ends: what comes after it decides. So a part of a text is always
read with its rest (`ReadsBack`), and the fuel only has to be more than the part is long. From the parts up to the
whole, **every value without doubles whose objects are in order reads back from its text** (`Writable.read?_write`).
-/

set_option autoImplicit false

namespace ReactiveRules.Json

/-! ## The characters of a text -/

/-- The characters that a value is written as. -/
def chars (j : Json) : List Char := (write j).toList

/-- The characters of an object's field. -/
def memberChars (f : String × Json) : List Char := (quote f.1).toList ++ ':' :: chars f.2

theorem toList_quote (s : String) : (quote s).toList = '"' :: (s.toList.flatMap escapeChar ++ ['"']) :=
  String.toList_ofList

theorem writeItems_eq (items : List Json) : writeItems items = items.map write := by
  induction items with
  | nil => rfl
  | cons item rest ih => rw [writeItems, ih, List.map_cons]

theorem chars_arr (items : List Json) :
    chars (.arr items) = '[' :: ([','].intercalate (items.map chars) ++ [']']) := by
  rw [chars, write, String.toList_append, String.toList_append, String.toList_intercalate,
    writeItems_eq, List.map_map]
  rfl

theorem map_toList_writeFields (fields : List (String × Json)) :
    (writeFields fields).map String.toList = fields.map memberChars := by
  induction fields with
  | nil => rfl
  | cons f rest ih =>
    obtain ⟨name, value⟩ := f
    rw [writeFields, List.map_cons, ih, String.toList_append, String.toList_append, List.append_assoc]
    rfl

theorem chars_obj (fields : List (String × Json)) :
    chars (.obj fields) = '\x7b' :: ([','].intercalate (fields.map memberChars) ++ ['\x7d']) := by
  rw [chars, write, String.toList_append, String.toList_append, String.toList_intercalate,
    map_toList_writeFields]
  rfl

/-! ## Strings -/

theorem hexValue?_hexDigit : ∀ n < 16, hexValue? (hexDigit n) = some n := by decide

/-- A control character is written as its code point. -/
theorem escape?_control {c : Char} (h : c.toNat < 32) (rest : List Char) :
    escape? ('u' :: '0' :: '0' :: hexDigit (c.toNat / 16) :: hexDigit (c.toNat % 16) :: rest)
      = some (c, rest) := by
  have hzero : hexValue? '0' = some 0 := rfl
  have hhigh : hexValue? (hexDigit (c.toNat / 16)) = some (c.toNat / 16) :=
    hexValue?_hexDigit _ (by omega)
  have hlow : hexValue? (hexDigit (c.toNat % 16)) = some (c.toNat % 16) :=
    hexValue?_hexDigit _ (by omega)
  have hcode : ((0 * 16 + 0) * 16 + c.toNat / 16) * 16 + c.toNat % 16 = c.toNat := by omega
  have hpair : (decide (0xD800 ≤ c.toNat) && decide (c.toNat < 0xDC00)) = false := by
    simp; omega
  have hlone : (decide (0xDC00 ≤ c.toNat) && decide (c.toNat < 0xE000)) = false := by
    simp; omega
  simp only [escape?, unicodeEscape?, hex4?, hzero, hhigh, hlow, Option.bind_eq_bind, Option.bind_some,
    hcode, hpair, hlone, Char.ofNat_toNat]
  rfl

theorem stringTail?_escape (fuel : Nat) (acc : List Char) {c : Char} {text rest : List Char}
    (h : escape? text = some (c, rest)) :
    stringTail? (fuel + 1) acc ('\\' :: text) = stringTail? fuel (c :: acc) rest := by
  rw [stringTail?, if_neg (by decide), if_pos (beq_self_eq_true _), h]

/-- Each character of a string takes one step to read. -/
theorem stringTail?_escapeChar (fuel : Nat) (acc : List Char) (c : Char) (rest : List Char) :
    stringTail? (fuel + 1) acc (escapeChar c ++ rest) = stringTail? fuel (c :: acc) rest := by
  have hchar : ∀ n, c.toNat = n → c = Char.ofNat n := fun n h => by rw [← h, Char.ofNat_toNat]
  unfold escapeChar
  split_ifs with hquote hslash hline hreturn htab hback hfeed hcontrol
  · rw [beq_iff_eq.mp hquote]
    rfl
  · rw [beq_iff_eq.mp hslash]
    rfl
  · rw [beq_iff_eq.mp hline]
    rfl
  · rw [beq_iff_eq.mp hreturn]
    rfl
  · rw [beq_iff_eq.mp htab]
    rfl
  · rw [hchar 8 (beq_iff_eq.mp hback)]
    rfl
  · rw [hchar 12 (beq_iff_eq.mp hfeed)]
    rfl
  · exact stringTail?_escape fuel acc (escape?_control hcontrol rest)
  · rw [List.singleton_append, stringTail?, if_neg hquote, if_neg hslash, if_neg hcontrol]

theorem length_escapeChar_pos (c : Char) : 0 < (escapeChar c).length := by
  unfold escapeChar
  split_ifs <;> exact Nat.zero_lt_succ _

theorem length_le_flatMap_escapeChar (s : List Char) : s.length ≤ (s.flatMap escapeChar).length := by
  induction s with
  | nil => exact Nat.le_refl _
  | cons c s ih =>
    rw [List.flatMap_cons, List.length_append, List.length_cons]
    have := length_escapeChar_pos c
    omega

theorem stringTail?_write (s acc rest : List Char) {fuel : Nat} (h : s.length < fuel) :
    stringTail? fuel acc (s.flatMap escapeChar ++ '"' :: rest)
      = some (String.ofList (acc.reverse ++ s), rest) := by
  induction s generalizing acc fuel with
  | nil =>
    obtain ⟨fuel, rfl⟩ := Nat.exists_eq_succ_of_ne_zero (Nat.ne_of_gt h)
    rw [List.append_nil]
    rfl
  | cons c s ih =>
    obtain ⟨fuel, rfl⟩ := Nat.exists_eq_succ_of_ne_zero (Nat.ne_of_gt (Nat.zero_lt_of_lt h))
    rw [List.flatMap_cons, List.append_assoc, stringTail?_escapeChar,
      ih (c :: acc) (Nat.lt_of_succ_lt_succ h), List.reverse_cons, List.append_assoc]
    rfl

/-- A string reads back behind its opening quote. -/
theorem stringTail?_quoted (s : String) (rest : List Char) :
    let text := s.toList.flatMap escapeChar ++ '"' :: rest
    stringTail? (text.length + 1) [] text = some (s, rest) := by
  intro text
  have hlength : s.toList.length < text.length + 1 := by
    have := length_le_flatMap_escapeChar s.toList
    rw [List.length_append]
    omega
  rw [stringTail?_write s.toList [] rest hlength, List.reverse_nil, List.nil_append,
    String.ofList_toList]

/-! ## Whole numbers -/

/-- Nothing that could go on with a number: the text ends, or its next part begins. -/
def Ends (rest : List Char) : Prop := ∀ c ∈ rest.head?, c = ',' ∨ c = ']' ∨ c = '\x7d'

/-- Only zero is written with a leading zero. -/
theorem head?_toDigits {n : Nat} (hn : n ≠ 0) : (Nat.toDigits 10 n).head? ≠ some '0' := by
  induction n using Nat.strongRecOn with
  | _ n ih =>
    rw [Nat.toDigits_eq_if (by decide)]
    split
    · simpa using hn
    · next hten =>
      have hdiv : n / 10 ≠ 0 := by omega
      rw [List.head?_append_of_ne_nil _ Nat.toDigits_ne_nil]
      exact ih (n / 10) (by omega) hdiv

theorem scan_digits (negative : Bool) {ds rest : List Char} (hds : ∀ c ∈ ds, Decimal.isDigit c = true)
    (hrest : Ends rest) : Decimal.scan negative (ds ++ rest) = (⟨negative, ds, none, none⟩, rest) := by
  have htake : (ds ++ rest).takeWhile Decimal.isDigit = ds := by
    rw [List.takeWhile_append_of_pos hds]
    cases rest with
    | nil => simp
    | cons c rest =>
      rcases hrest c rfl with rfl | rfl | rfl <;> exact List.append_nil _
  have hdrop : (ds ++ rest).dropWhile Decimal.isDigit = rest := by
    rw [List.dropWhile_append_of_pos hds]
    cases rest with
    | nil => rfl
    | cons c rest =>
      rcases hrest c rfl with rfl | rfl | rfl <;> rfl
  unfold Decimal.scan
  simp only [htake, hdrop]
  cases rest with
  | nil => rfl
  | cons c rest => rcases hrest c rfl with rfl | rfl | rfl <;> rfl

/-- A whole number within the range reads back behind its sign. -/
theorem number?_toDigits {negative : Bool} {n : Nat} {rest : List Char} (hrest : Ends rest)
    (hsign : negative = true → n ≠ 0)
    (hlow : Int64.minValue.toInt ≤ (if negative then -(n : Int) else n))
    (hhigh : (if negative then -(n : Int) else n) < UInt64.size) :
    number? negative (Nat.toDigits 10 n ++ rest)
      = some (.int (if negative then -(n : Int) else n), rest) := by
  have hleading : ∀ c ds, Nat.toDigits 10 n ≠ '0' :: c :: ds := by
    intro c ds hds
    by_cases hn : n = 0
    · subst hn
      cases hds
    · exact head?_toDigits hn (by rw [hds]; rfl)
  have hempty : (Nat.toDigits 10 n).isEmpty = false := by
    simp
  have hexponent : ∀ ds, rest ≠ 'e' :: ds ∧ rest ≠ 'E' :: ds := by
    intro ds
    constructor
    · rintro rfl
      simpa using hrest 'e' rfl
    · rintro rfl
      simpa using hrest 'E' rfl
  unfold number?
  rw [scan_digits negative (fun _ => Decimal.isDigit_of_mem) hrest]
  dsimp only
  rw [hempty]
  split
  · exact absurd rfl (hexponent _).1
  · exact absurd rfl (hexponent _).2
  · split
    · next hds => exact absurd hds (hleading _ _)
    · rw [if_neg (by decide), Decimal.Numeral.whole?, Decimal.natOfDigits_toDigits]
      dsimp only
      rw [if_pos]
      rw [decide_eq_true hlow, decide_eq_true hhigh]
      cases negative with
      | false => rfl
      | true => simpa using hsign rfl

theorem chars_int (n : Int) : chars (.int n) =
    if n < 0 then '-' :: Nat.toDigits 10 n.natAbs else Nat.toDigits 10 n.natAbs :=
  Text.toList_toString n

/-! ## Values -/

/-- Values whose texts are not too deep and that have an exact text: whole numbers within the range that is read
as such, no doubles, and objects in the order of their names. -/
inductive Writable : Nat → Json → Prop
  | null (depth : Nat) : Writable depth .null
  | bool (depth : Nat) (b : Bool) : Writable depth (.bool b)
  | int (depth : Nat) {n : Int} (hlow : Int64.minValue.toInt ≤ n) (hhigh : n < UInt64.size) :
      Writable depth (.int n)
  | str (depth : Nat) (s : String) : Writable depth (.str s)
  | arr {depth : Nat} {items : List Json} (h : ∀ item ∈ items, Writable depth item) :
      Writable (depth + 1) (.arr items)
  | obj {depth : Nat} {fields : List (String × Json)} (hordered : Ordered fields)
      (h : ∀ f ∈ fields, Writable depth f.2) : Writable (depth + 1) (.obj fields)

/-- The text of the value reads back at this depth, whatever comes after it. -/
def ReadsBack (depth : Nat) (j : Json) : Prop :=
  ∀ fuel rest, (chars j).length < fuel → Ends rest →
    value? fuel depth (chars j ++ rest) = some (j, rest)

variable {depth : Nat} {rest : List Char}

theorem skipBlanks_cons {c : Char} (h : isBlank c = false) (cs : List Char) :
    skipBlanks (c :: cs) = c :: cs := by
  unfold skipBlanks
  rw [List.dropWhile_cons, h]
  rfl

theorem ne_of_isDigit {c d : Char} (hc : Decimal.isDigit c = true) (hd : Decimal.isDigit d = false) :
    c ≠ d := by
  rintro rfl
  rw [hc] at hd
  cases hd

theorem isBlank_digit {c : Char} (h : Decimal.isDigit c = true) : isBlank c = false := by
  simp [isBlank, ne_of_isDigit h (d := ' ') rfl, ne_of_isDigit h (d := '\t') rfl,
    ne_of_isDigit h (d := '\n') rfl, ne_of_isDigit h (d := '\r') rfl]

/-- A digit begins a number without a sign. -/
theorem value?_digit {c : Char} (h : Decimal.isDigit c = true) (fuel : Nat) (cs : List Char) :
    value? (fuel + 1) depth (c :: cs) = number? false (c :: cs) := by
  rw [value?, skipBlanks_cons (isBlank_digit h)]
  split
  case h_8 => rfl
  all_goals next heq => exact absurd (List.cons.inj heq).1 (ne_of_isDigit h rfl)

theorem toDigits_cons (n : Nat) : ∃ d ds, Nat.toDigits 10 n = d :: ds ∧ Decimal.isDigit d = true := by
  obtain ⟨d, ds, hds⟩ := List.exists_cons_of_ne_nil (Nat.toDigits_ne_nil (n := n) (b := 10))
  exact ⟨d, ds, hds, Decimal.isDigit_of_mem (hds ▸ List.mem_cons_self)⟩

theorem readsBack_null (depth : Nat) : ReadsBack depth .null := by
  intro fuel rest hfuel _
  obtain ⟨fuel, rfl⟩ := Nat.exists_eq_succ_of_ne_zero (Nat.ne_of_gt (Nat.zero_lt_of_lt hfuel))
  rfl

theorem readsBack_bool (depth : Nat) (b : Bool) : ReadsBack depth (.bool b) := by
  intro fuel rest hfuel _
  obtain ⟨fuel, rfl⟩ := Nat.exists_eq_succ_of_ne_zero (Nat.ne_of_gt (Nat.zero_lt_of_lt hfuel))
  cases b <;> rfl

theorem readsBack_int (depth : Nat) {n : Int} (hlow : Int64.minValue.toInt ≤ n)
    (hhigh : n < UInt64.size) : ReadsBack depth (.int n) := by
  intro fuel rest hfuel hrest
  obtain ⟨fuel, rfl⟩ := Nat.exists_eq_succ_of_ne_zero (Nat.ne_of_gt (Nat.zero_lt_of_lt hfuel))
  rw [chars_int]
  split
  · next hneg =>
    have hvalue : (if true = true then -(n.natAbs : Int) else n.natAbs) = n := by
      rw [if_pos rfl]
      omega
    show number? true (Nat.toDigits 10 n.natAbs ++ rest) = _
    rw [number?_toDigits hrest (fun _ => by omega) (hvalue.symm ▸ hlow) (hvalue.symm ▸ hhigh), hvalue]
  · next hpos =>
    have hvalue : (if false = true then -(n.natAbs : Int) else n.natAbs) = n := by
      rw [if_neg Bool.false_ne_true]
      omega
    obtain ⟨d, ds, hds, hd⟩ := toDigits_cons n.natAbs
    have hread : number? false (Nat.toDigits 10 n.natAbs ++ rest) = some (.int n, rest) := by
      rw [number?_toDigits hrest (fun h => by cases h) (hvalue.symm ▸ hlow) (hvalue.symm ▸ hhigh),
        hvalue]
    rw [hds] at hread ⊢
    exact (value?_digit hd fuel (ds ++ rest)).trans hread

theorem readsBack_str (depth : Nat) (s : String) : ReadsBack depth (.str s) := by
  intro fuel rest hfuel _
  obtain ⟨fuel, rfl⟩ := Nat.exists_eq_succ_of_ne_zero (Nat.ne_of_gt (Nat.zero_lt_of_lt hfuel))
  have htext : chars (.str s) ++ rest = '"' :: (s.toList.flatMap escapeChar ++ '"' :: rest) := by
    show (quote s).toList ++ rest = _
    rw [toList_quote, List.cons_append, List.append_assoc]
    rfl
  rw [htext]
  show (stringTail? _ [] _).map _ = _
  rw [stringTail?_quoted]
  rfl

/-! ### Arrays and objects -/

/-- The text of a value begins with a character that is neither blank nor closes anything. -/
def Begins (text : List Char) : Prop :=
  ∃ c cs, text = c :: cs ∧ isBlank c = false ∧ c ≠ ']' ∧ c ≠ '\x7d'

theorem Writable.begins {j : Json} (h : Writable depth j) : Begins (chars j) := by
  cases h with
  | null => exact ⟨_, _, rfl, rfl, by decide, by decide⟩
  | bool depth b => cases b <;> exact ⟨_, _, rfl, rfl, by decide, by decide⟩
  | @int depth n hlow hhigh =>
    rw [chars_int]
    split
    · exact ⟨_, _, rfl, rfl, by decide, by decide⟩
    · obtain ⟨d, ds, hds, hd⟩ := toDigits_cons n.natAbs
      exact ⟨d, ds, hds, isBlank_digit hd, ne_of_isDigit hd rfl, ne_of_isDigit hd rfl⟩
  | str depth s => exact ⟨_, _, toList_quote s, rfl, by decide, by decide⟩
  | arr h => exact ⟨_, _, chars_arr _, rfl, by decide, by decide⟩
  | obj hordered h => exact ⟨_, _, chars_obj _, rfl, by decide, by decide⟩

/-- An item reads back, and what comes after it decides how to go on. -/
theorem items?_item {item : Json} (h : ReadsBack depth item) (acc : List Json) {fuel : Nat}
    (hfuel : (chars item).length < fuel) {c : Char} (hc : c = ',' ∨ c = ']') :
    items? (fuel + 1) depth acc (chars item ++ c :: rest) =
      if c = ',' then items? fuel depth (item :: acc) rest
      else some ((item :: acc).reverse, rest) := by
  have hitem : value? fuel depth (chars item ++ c :: rest) = some (item, c :: rest) :=
    h fuel (c :: rest) hfuel (by rcases hc with rfl | rfl <;> simp [Ends])
  rw [items?, hitem]
  rcases hc with rfl | rfl
  · rfl
  · rfl

/-- The items of an array read back up to its closing bracket. -/
theorem items?_write {items : List Json} (hne : items ≠ [])
    (h : ∀ item ∈ items, ReadsBack depth item) (acc : List Json) {fuel : Nat}
    (hfuel : ([','].intercalate (items.map chars)).length + 1 < fuel) :
    items? fuel depth acc ([','].intercalate (items.map chars) ++ ']' :: rest)
      = some (acc.reverse ++ items, rest) := by
  induction items generalizing acc fuel with
  | nil => exact absurd rfl hne
  | cons item items ih =>
    obtain ⟨fuel, rfl⟩ := Nat.exists_eq_succ_of_ne_zero (Nat.ne_of_gt (Nat.zero_lt_of_lt hfuel))
    have hitem : ReadsBack depth item := h item List.mem_cons_self
    cases items with
    | nil =>
      rw [List.map_singleton, List.intercalate_singleton] at hfuel ⊢
      rw [items?_item hitem acc (by omega) (.inr rfl), if_neg (by decide), List.reverse_cons]
    | cons item' items =>
      rw [List.map_cons, List.map_cons, List.intercalate_cons_cons] at hfuel ⊢
      rw [← List.map_cons] at hfuel ⊢
      rw [List.length_append, List.length_append, List.length_singleton] at hfuel
      rw [List.append_assoc, List.append_assoc, List.singleton_append,
        items?_item hitem acc (by omega) (.inl rfl), if_pos rfl,
        ih (List.cons_ne_nil _ _) (fun i hi => h i (List.mem_cons_of_mem _ hi)) _ (by omega),
        List.reverse_cons, List.append_assoc]
      rfl

/-- A field reads back with its name, and what comes after it decides how to go on. -/
theorem members?_member {name : String} {value : Json} (h : ReadsBack depth value)
    (acc : List (String × Json)) {fuel : Nat} (hfuel : (memberChars (name, value)).length ≤ fuel)
    {c : Char} (hc : c = ',' ∨ c = '\x7d') :
    members? (fuel + 1) depth acc (memberChars (name, value) ++ c :: rest) =
      if c = ',' then members? fuel depth (insertField name value acc) rest
      else some (insertField name value acc, rest) := by
  have hmember : memberChars (name, value) ++ c :: rest =
      '"' :: (name.toList.flatMap escapeChar ++ '"' :: ':' :: (chars value ++ c :: rest)) := by
    rw [memberChars, toList_quote]
    simp
  have hlength : (chars value).length < fuel := by
    refine Nat.lt_of_lt_of_le ?_ hfuel
    show _ < ((quote name).toList ++ ':' :: chars value).length
    rw [List.length_append, List.length_cons]
    omega
  have hvalue : value? fuel depth (chars value ++ c :: rest) = some (value, c :: rest) :=
    h fuel (c :: rest) hlength (by rcases hc with rfl | rfl <;> simp [Ends])
  have hname := stringTail?_quoted name (':' :: (chars value ++ c :: rest))
  rw [hmember, members?, skipBlanks_cons rfl]
  simp only [hname, skipBlanks_cons (c := ':') rfl, hvalue]
  rcases hc with rfl | rfl
  · rfl
  · rfl

/-- The fields of an object read back up to its closing brace, if their names come after those that have
been read. -/
theorem members?_write {fields : List (String × Json)} (hne : fields ≠ [])
    (h : ∀ f ∈ fields, ReadsBack depth f.2) (acc : List (String × Json))
    (hordered : Ordered (acc ++ fields)) {fuel : Nat}
    (hfuel : ([','].intercalate (fields.map memberChars)).length < fuel) :
    members? fuel depth acc ([','].intercalate (fields.map memberChars) ++ '\x7d' :: rest)
      = some (acc ++ fields, rest) := by
  induction fields generalizing acc fuel with
  | nil => exact absurd rfl hne
  | cons f fields ih =>
    obtain ⟨name, value⟩ := f
    obtain ⟨fuel, rfl⟩ := Nat.exists_eq_succ_of_ne_zero (Nat.ne_of_gt (Nat.zero_lt_of_lt hfuel))
    have hvalue : ReadsBack depth value := h (name, value) List.mem_cons_self
    have hlast : insertField name value acc = acc ++ [(name, value)] :=
      insertField_last fun g hg =>
        (List.pairwise_append.mp hordered).2.2 g hg (name, value) List.mem_cons_self
    cases fields with
    | nil =>
      rw [List.map_singleton, List.intercalate_singleton] at hfuel ⊢
      rw [members?_member hvalue acc (by omega) (.inr rfl), if_neg (by decide), hlast]
    | cons f' fields =>
      rw [List.map_cons, List.map_cons, List.intercalate_cons_cons] at hfuel ⊢
      rw [← List.map_cons] at hfuel ⊢
      rw [List.length_append, List.length_append, List.length_singleton] at hfuel
      rw [List.append_assoc, List.append_assoc, List.singleton_append,
        members?_member hvalue acc (by omega) (.inl rfl), if_pos rfl, hlast,
        ih (List.cons_ne_nil _ _) (fun g hg => h g (List.mem_cons_of_mem _ hg)) _
          (by rwa [List.append_assoc]) (by omega), List.append_assoc]
      rfl

theorem Begins.append {text : List Char} (h : Begins text) (more : List Char) :
    Begins (text ++ more) := by
  obtain ⟨c, cs, rfl, hc⟩ := h
  exact ⟨c, cs ++ more, rfl, hc⟩

theorem Begins.intercalate {text : List Char} (h : Begins text) (texts : List (List Char)) :
    Begins ([','].intercalate (text :: texts)) := by
  cases texts with
  | nil => rwa [List.intercalate_singleton]
  | cons text' texts =>
    rw [List.intercalate_cons_cons, List.append_assoc]
    exact h.append _

/-- Behind an opening bracket stand the items, unless the array is empty. -/
theorem value?_bracket {text : List Char} (h : Begins text) (fuel : Nat) :
    value? (fuel + 1) (depth + 1) ('[' :: text) =
      (items? fuel depth [] text).map fun (items, rest) => (.arr items, rest) := by
  obtain ⟨c, cs, rfl, hblank, hbracket, -⟩ := h
  rw [value?, skipBlanks_cons rfl]
  simp only [skipBlanks_cons hblank]
  split
  · next heq => exact absurd (List.cons.inj heq).1 hbracket
  · rfl

theorem value?_brace {text : List Char} (h : Begins text) (fuel : Nat) :
    value? (fuel + 1) (depth + 1) ('\x7b' :: text) =
      (members? fuel depth [] text).map fun (fields, rest) => (.obj fields, rest) := by
  obtain ⟨c, cs, rfl, hblank, -, hbrace⟩ := h
  rw [value?, skipBlanks_cons rfl]
  simp only [skipBlanks_cons hblank]
  split
  · next heq => exact absurd (List.cons.inj heq).1 hbrace
  · rfl

theorem readsBack_arr {items : List Json} (hbegins : ∀ item ∈ items, Begins (chars item))
    (h : ∀ item ∈ items, ReadsBack depth item) : ReadsBack (depth + 1) (.arr items) := by
  intro fuel rest hfuel _
  obtain ⟨fuel, rfl⟩ := Nat.exists_eq_succ_of_ne_zero (Nat.ne_of_gt (Nat.zero_lt_of_lt hfuel))
  cases items with
  | nil => rfl
  | cons item items =>
    rw [chars_arr] at hfuel ⊢
    rw [List.length_cons, List.length_append, List.length_singleton] at hfuel
    have htext : Begins ([','].intercalate ((item :: items).map chars)) :=
      (hbegins item List.mem_cons_self).intercalate _
    rw [List.cons_append, List.append_assoc, value?_bracket (htext.append _), List.singleton_append,
      items?_write (List.cons_ne_nil _ _) h [] (by omega)]
    rfl

theorem readsBack_obj {fields : List (String × Json)} (hordered : Ordered fields)
    (h : ∀ f ∈ fields, ReadsBack depth f.2) : ReadsBack (depth + 1) (.obj fields) := by
  intro fuel rest hfuel _
  obtain ⟨fuel, rfl⟩ := Nat.exists_eq_succ_of_ne_zero (Nat.ne_of_gt (Nat.zero_lt_of_lt hfuel))
  cases fields with
  | nil => rfl
  | cons f fields =>
    rw [chars_obj] at hfuel ⊢
    rw [List.length_cons, List.length_append, List.length_singleton] at hfuel
    have hfirst : Begins (memberChars f) := by
      rw [memberChars, toList_quote]
      exact ⟨_, _, rfl, rfl, by decide, by decide⟩
    have htext : Begins ([','].intercalate ((f :: fields).map memberChars)) := hfirst.intercalate _
    rw [List.cons_append, List.append_assoc, value?_brace (htext.append _), List.singleton_append,
      members?_write (List.cons_ne_nil _ _) h [] hordered (by omega)]
    rfl

/-! ## Whole texts -/

theorem Writable.readsBack {j : Json} (h : Writable depth j) : ReadsBack depth j := by
  induction h with
  | null depth => exact readsBack_null depth
  | bool depth b => exact readsBack_bool depth b
  | int depth hlow hhigh => exact readsBack_int depth hlow hhigh
  | str depth s => exact readsBack_str depth s
  | arr h ih => exact readsBack_arr (fun item hi => (h item hi).begins) ih
  | obj hordered h ih => exact readsBack_obj hordered ih

theorem writable_object {depth : Nat} {fields : List (String × Json)}
    (h : ∀ f ∈ fields, Writable depth f.2) : Writable (depth + 1) (object fields) :=
  .obj (ordered_arranged fields) fun f hf => h f (mem_arranged hf)

theorem writable_ofUInt64 (depth : Nat) (n : UInt64) : Writable depth (ofUInt64 n) :=
  .int depth (by have := Int.natCast_nonneg n.toNat; exact le_trans (by decide) this)
    (by exact_mod_cast n.toNat_lt)

theorem writable_ofInt64 (depth : Nat) (n : Int64) : Writable depth (ofInt64 n) :=
  .int depth n.le_toInt (lt_of_le_of_lt n.toInt_le (by decide))

theorem writable_ofInt32 (depth : Nat) (n : Int32) : Writable depth (ofInt32 n) :=
  .int depth (le_trans (by decide) n.le_toInt) (lt_of_le_of_lt n.toInt_le (by decide))

/-- **What is written reads back**: values without doubles, with whole numbers of 64 bits and objects in the
order of their names, nested at most 127 deep. -/
theorem Writable.read?_write {j : Json} (h : Writable 127 j) : read? (write j) = some j := by
  have hread : value? ((chars j).length + 1) 127 (chars j ++ []) = some (j, []) :=
    h.readsBack _ [] (Nat.lt_succ_self _) (fun c hc => by cases hc)
  rw [List.append_nil, chars] at hread
  unfold read?
  simp only [hread]
  rfl

end ReactiveRules.Json
