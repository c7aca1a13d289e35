import Mathlib.Data.List.Induction
import Mathlib.Data.String.Basic
import ReactiveRules.Json.Fields

/-!
# `Proofs/Json/Fields.lean` — objects and their fields

`Json.object` puts the fields of a record in the order of their names, and readers look for them by name.
**What is found under a name is what was put there last** (`lookup?_arranged`), whatever the order. The order
matters to the text of an object alone (`ordered_arranged`).

A word is read from just the one JSON value that it is written as (`uint64?_iff` and its likes), so nothing
outside its range is ever taken for it.
-/

set_option autoImplicit false

namespace ReactiveRules.Json

variable {α : Type} {fields fields' : List (String × Json)} {name : String} {value : Json}

/-! ## Looking up -/

@[simp] theorem lookup?_nil (name : String) : lookup? [] name = none := rfl

theorem lookup?_cons (other : String) (v : Json) (rest : List (String × Json)) (name : String) :
    lookup? ((other, v) :: rest) name = if other = name then some v else lookup? rest name := by
  unfold lookup?
  rw [List.find?_cons]
  by_cases h : other = name
  · rw [if_pos h, beq_iff_eq.mpr h]
    rfl
  · rw [if_neg h, beq_eq_false_iff_ne.mpr h]

theorem lookup?_cons_ne {other : String} {v : Json} (h : other ≠ name) :
    lookup? ((other, v) :: fields) name = lookup? fields name := by
  rw [lookup?_cons, if_neg h]

theorem lookup?_insertField (name : String) (value : Json) (fields : List (String × Json))
    (other : String) : lookup? (insertField name value fields) other =
      if name = other then some value else lookup? fields other := by
  induction fields with
  | nil => rw [insertField, lookup?_cons]
  | cons f rest ih =>
    obtain ⟨before, v⟩ := f
    rw [insertField]
    split
    · rw [lookup?_cons]
    · split
      · next heq =>
        obtain rfl : name = before := beq_iff_eq.mp heq
        rw [lookup?_cons, lookup?_cons]
        split <;> rfl
      · next hne =>
        rw [lookup?_cons, lookup?_cons, ih]
        by_cases hbefore : before = other
        · have hname : name ≠ other := fun h => hne (beq_iff_eq.mpr (h.trans hbefore.symm))
          rw [if_pos hbefore, if_neg hname, if_pos hbefore]
        · rw [if_neg hbefore, if_neg hbefore]

/-- The fields of a record in the order of their names. -/
def arranged (fields : List (String × Json)) : List (String × Json) :=
  fields.foldl (fun acc f => insertField f.1 f.2 acc) []

theorem lookup?_foldl (fields acc : List (String × Json)) (name : String) :
    lookup? (fields.foldl (fun acc f => insertField f.1 f.2 acc) acc) name =
      (lookup? fields.reverse name).or (lookup? acc name) := by
  induction fields using List.reverseRecOn with
  | nil => rfl
  | append_singleton fields f ih =>
    rw [List.foldl_append, List.reverse_append, List.reverse_singleton, List.singleton_append,
      List.foldl_cons, List.foldl_nil, lookup?_insertField, ih, lookup?_cons]
    split <;> rfl

/-- Under a name stands the last of the fields that have it. -/
theorem lookup?_arranged (fields : List (String × Json)) (name : String) :
    lookup? (arranged fields) name = lookup? fields.reverse name := by
  rw [arranged, lookup?_foldl, lookup?_nil, Option.or_none]

theorem field?_object (fields : List (String × Json)) (name : String) :
    (object fields).field? name = lookup? fields.reverse name :=
  lookup?_arranged fields name

theorem lookup?_filter_ne {other : String} (h : name ≠ other) :
    lookup? (fields.filter (·.1 != other)) name = lookup? fields name := by
  induction fields with
  | nil => rfl
  | cons f rest ih =>
    obtain ⟨before, v⟩ := f
    rw [List.filter_cons]
    split
    · rw [lookup?_cons, lookup?_cons, ih]
    · next hdrop =>
      obtain rfl : before = other := by simpa using hdrop
      rw [lookup?_cons, if_neg h.symm, ih]

/-! ## The order of names -/

/-- Each name comes before the next one, so no name comes twice. -/
def Ordered (fields : List (String × Json)) : Prop := fields.Pairwise fun f g => f.1 < g.1

theorem mem_insertField {f : String × Json} (h : f ∈ insertField name value fields) :
    f = (name, value) ∨ f ∈ fields := by
  induction fields with
  | nil => exact .inl (List.mem_singleton.mp h)
  | cons g rest ih =>
    obtain ⟨other, v⟩ := g
    rw [insertField] at h
    split at h
    · exact (List.mem_cons.mp h).imp id id
    · split at h
      · exact (List.mem_cons.mp h).imp id (List.mem_cons_of_mem _)
      · rcases List.mem_cons.mp h with rfl | h
        · exact .inr List.mem_cons_self
        · exact (ih h).imp id (List.mem_cons_of_mem _)

theorem Ordered.insertField (h : Ordered fields) (name : String) (value : Json) :
    Ordered (insertField name value fields) := by
  induction fields with
  | nil => exact List.pairwise_singleton _ _
  | cons f rest ih =>
    obtain ⟨other, v⟩ := f
    obtain ⟨hfirst, hrest⟩ := List.pairwise_cons.mp h
    rw [Json.insertField]
    split
    · next hlt =>
      refine List.pairwise_cons.mpr ⟨fun g hg => ?_, h⟩
      rcases List.mem_cons.mp hg with rfl | hg
      · exact hlt
      · exact String.lt_trans hlt (hfirst g hg)
    · next hnot =>
      split
      · next heq =>
        obtain rfl : name = other := beq_iff_eq.mp heq
        exact List.pairwise_cons.mpr ⟨hfirst, hrest⟩
      · next hne =>
        have hlt : other < name := by
          rcases lt_trichotomy other name with hlt | heq | hgt
          · exact hlt
          · exact absurd (beq_iff_eq.mpr heq.symm) hne
          · exact absurd hgt hnot
        refine List.pairwise_cons.mpr ⟨fun g hg => ?_, ih hrest⟩
        rcases mem_insertField hg with rfl | hg
        · exact hlt
        · exact hfirst g hg

/-- A name that comes after all others goes to the end. -/
theorem insertField_last (h : ∀ f ∈ fields, f.1 < name) :
    insertField name value fields = fields ++ [(name, value)] := by
  induction fields with
  | nil => rfl
  | cons f rest ih =>
    obtain ⟨other, v⟩ := f
    have hlt : other < name := h _ List.mem_cons_self
    have hne : (name == other) = false := beq_eq_false_iff_ne.mpr (ne_of_gt hlt)
    rw [insertField, if_neg (String.lt_asymm hlt), hne, ih fun f hf => h f (List.mem_cons_of_mem _ hf)]
    rfl

theorem ordered_arranged (fields : List (String × Json)) : Ordered (arranged fields) := by
  unfold arranged
  induction fields using List.reverseRecOn with
  | nil => exact .nil
  | append_singleton fields f ih =>
    rw [List.foldl_append]
    exact ih.insertField f.1 f.2

theorem mem_arranged {f : String × Json} (h : f ∈ arranged fields) : f ∈ fields := by
  unfold arranged at h
  induction fields using List.reverseRecOn with
  | nil => cases h
  | append_singleton fields g ih =>
    rw [List.foldl_append] at h
    rcases mem_insertField h with rfl | h
    · exact List.mem_append_right _ List.mem_cons_self
    · exact List.mem_append_left _ (ih h)

/-! ## Words -/

theorem bool?_iff {j : Json} {b : Bool} : j.bool? = some b ↔ j = .bool b := by
  cases j <;> simp [bool?]

theorem str?_iff {j : Json} {s : String} : j.str? = some s ↔ j = .str s := by
  cases j <;> simp [str?]

theorem intIn?_iff {j : Json} {low high n : Int} :
    j.intIn? low high = some n ↔ j = .int n ∧ low ≤ n ∧ n ≤ high := by
  cases j with
  | int m =>
    simp only [intIn?, Option.ite_none_right_eq_some, Bool.and_eq_true, decide_eq_true_eq,
      Option.some.injEq, int.injEq]
    constructor
    · rintro ⟨h, rfl⟩
      exact ⟨rfl, h⟩
    · rintro ⟨rfl, h⟩
      exact ⟨h, rfl⟩
  | _ => simp [intIn?]

theorem uint64?_iff {j : Json} {n : UInt64} : j.uint64? = some n ↔ j = ofUInt64 n := by
  unfold uint64? ofUInt64
  rw [Option.map_eq_some_iff]
  constructor
  · rintro ⟨m, hm, rfl⟩
    obtain ⟨rfl, hlow, hhigh⟩ := intIn?_iff.mp hm
    have hsize : m.toNat < UInt64.size := by
      have : (UInt64.size : Int) = 18446744073709551616 := rfl
      omega
    rw [UInt64.toNat_ofNat_of_lt' hsize, Int.toNat_of_nonneg hlow]
  · rintro rfl
    refine ⟨n.toNat, intIn?_iff.mpr ⟨rfl, Int.natCast_nonneg _, ?_⟩, ?_⟩
    · have : (UInt64.size : Int) = 18446744073709551616 := rfl
      have := n.toNat_lt
      omega
    · rw [Int.toNat_natCast, UInt64.ofNat_toNat]

theorem int64?_iff {j : Json} {n : Int64} : j.int64? = some n ↔ j = ofInt64 n := by
  unfold int64? ofInt64
  rw [Option.map_eq_some_iff]
  constructor
  · rintro ⟨m, hm, rfl⟩
    obtain ⟨rfl, hlow, hhigh⟩ := intIn?_iff.mp hm
    rw [Int64.toInt_ofInt_of_le hlow (Int.lt_of_le_sub_one hhigh)]
  · rintro rfl
    exact ⟨n.toInt, intIn?_iff.mpr ⟨rfl, n.le_toInt, n.toInt_le⟩, n.ofInt_toInt⟩

theorem int32?_iff {j : Json} {n : Int32} : j.int32? = some n ↔ j = ofInt32 n := by
  unfold int32? ofInt32
  rw [Option.map_eq_some_iff]
  constructor
  · rintro ⟨m, hm, rfl⟩
    obtain ⟨rfl, hlow, hhigh⟩ := intIn?_iff.mp hm
    rw [Int32.toInt_ofInt_of_le hlow (Int.lt_of_le_sub_one hhigh)]
  · rintro rfl
    exact ⟨n.toInt, intIn?_iff.mpr ⟨rfl, n.le_toInt, n.toInt_le⟩, n.ofInt_toInt⟩

/-! ## Fields of a record -/

section Reading

variable {read : Json → Option α} {write : α → Json}

/-- A field that must be there is read from just what it is written as. -/
theorem required?_iff (h : ∀ {j a}, read j = some a ↔ j = write a) {a : α} :
    required? fields name read = some a ↔ lookup? fields name = some (write a) := by
  unfold required?
  rw [Option.bind_eq_some_iff]
  constructor
  · rintro ⟨v, hv, hread⟩
    rw [hv, h.mp hread]
  · intro hv
    exact ⟨_, hv, h.mpr rfl⟩

/-- A field that may be absent is as the document has it, or else as the default is written. -/
theorem optional?_iff (h : ∀ {j a}, read j = some a ↔ j = write a) {default a : α} :
    optional? fields name read default = some a ↔
      (lookup? fields name).or (some (write default)) = some (write a) := by
  unfold optional?
  cases lookup? fields name with
  | none =>
    constructor
    · intro hd
      rw [Option.some.inj hd]
      rfl
    · intro hw
      -- both are read from the same JSON value
      have hread : read (write a) = some default := h.mpr (Option.some.inj hw).symm
      rw [← hread]
      exact h.mpr rfl
  | some v => exact h.trans Option.some_inj.symm

theorem required?_congr (h : lookup? fields name = lookup? fields' name) :
    required? fields name read = required? fields' name read := by
  unfold required?
  rw [h]

theorem optional?_of_lookup (h : lookup? fields name = some value) (default : α) :
    optional? fields name read default = read value := by
  unfold optional?
  rw [h]

/-- A field that is a document of its own: it is read if it is there, and is the default if not. -/
theorem optional?_eq_some {default a : α} : optional? fields name read default = some a ↔
    (∀ v, lookup? fields name = some v → read v = some a) ∧
      (lookup? fields name = none → a = default) := by
  unfold optional?
  cases lookup? fields name with
  | none => simp [eq_comm]
  | some v => simp

/-- A field reads the same from two documents that have there what reads the same. -/
theorem optional?_congr {same : Json → Json → Prop} {default : α}
    (h : Option.Rel same (lookup? fields name) (lookup? fields' name))
    (hread : ∀ v v', same v v' → read v = read v') :
    optional? fields name read default = optional? fields' name read default := by
  unfold optional?
  generalize lookup? fields name = v at h
  generalize lookup? fields' name = v' at h
  cases h with
  | none => rfl
  | some h => exact hread _ _ h

end Reading

/-! ## Documents -/

/-- In an array the first value is that of the first name. -/
theorem fields?_cons (name : String) (names : List String) (v : Json) (rest : List Json) :
    fields? (name :: names) (.arr (v :: rest)) = (fields? names (.arr rest)).map ((name, v) :: ·) := by
  unfold fields?
  simp only [List.length_cons, Nat.add_le_add_iff_right, List.zip_cons_cons]
  split <;> rfl

/-- Two documents that are the same under the names of a record; what stands there may be compared as a
document of its own. Other names of an object do not count. -/
inductive AgreeBy (names : List String) (same : String → Json → Json → Prop) : Json → Json → Prop
  | refl (j : Json) : AgreeBy names same j j
  | obj {fields fields' : List (String × Json)}
      (h : ∀ name ∈ names, Option.Rel (same name) (lookup? fields name) (lookup? fields' name)) :
      AgreeBy names same (.obj fields) (.obj fields')

/-- Two documents with the same values under the names of a record. -/
def Agree (names : List String) : Json → Json → Prop := AgreeBy names fun _ => Eq

/-- Under each of the names the result has what the fields have there, or else what the default has. -/
def Completes (names : List String) (fields : List (String × Json)) (default result : Json) : Prop :=
  ∀ name ∈ names, (lookup? fields name).or (default.field? name) = result.field? name

/-- The record that a document stands for: its fields with the default's in the place of those that are
absent. -/
def Gives (names : List String) (default result j : Json) : Prop :=
  ∃ fields, fields? names j = some fields ∧ Completes names fields default result

theorem eq_of_rel {v v' : Option Json} (h : Option.Rel Eq v v') : v = v' := by
  cases h with
  | none => rfl
  | some h => rw [h]

/-- Only the fields of the record count. -/
theorem Agree.gives_iff {names : List String} {default result j j' : Json} (h : Agree names j j') :
    Gives names default result j ↔ Gives names default result j' := by
  cases h with
  | refl => exact Iff.rfl
  | @obj fields fields' h =>
    have hlookup : ∀ name ∈ names, lookup? fields name = lookup? fields' name := fun name hname =>
      eq_of_rel (h name hname)
    constructor
    · rintro ⟨_, hfields, hc⟩
      cases hfields
      exact ⟨fields', rfl, fun name hname => hlookup name hname ▸ hc name hname⟩
    · rintro ⟨_, hfields, hc⟩
      cases hfields
      exact ⟨fields, rfl, fun name hname => (hlookup name hname).symm ▸ hc name hname⟩

/-- Where all fields are there, it does not matter what the default is. -/
theorem completes_object {names : List String} {default : Json}
    (h : ∀ name ∈ names, ((object fields).field? name).isSome) :
    Completes names (arranged fields) default (object fields) := by
  intro name hname
  obtain ⟨v, hv⟩ := Option.isSome_iff_exists.mp (h name hname)
  have hlookup : lookup? (arranged fields) name = some v := hv
  rw [hlookup, hv]
  rfl

/-- A document that has all fields gives itself. -/
theorem gives_object {names : List String} {default : Json}
    (h : ∀ name ∈ names, ((object fields).field? name).isSome) :
    Gives names default (object fields) (object fields) :=
  ⟨_, rfl, completes_object h⟩

end ReactiveRules.Json
