import ReactiveRules.Broadcast.Event
import ReactiveRules.History
import ReactiveRules.Proofs.Wire.Settings

/-!
# `Proofs/Wire/Formats.lean` — documents of settings, events and records

**Settings, events and records of runs read back from what they are written as**, as JSON and as its
text (`formats_read_back`). There is no bound on their numbers but that of the word that keeps them, and
none on their strings. A field that the format does not know counts for nothing, and a field of settings
has its default just if it is absent.

An event has a field that depends on its kind, so which names it knows depends on the kind too
(`RuleEvent.known`). When a run ended is not part of `RunRecord`, nor of what is said here; in an array its
place is the last one (`RunRecord.fields?`).
-/

set_option autoImplicit false

namespace ReactiveRules

open Json

/-! ## Events -/

namespace RuleEvent

variable {fs fs' : List (String × Json)} {j j' : Json}

/-- The names of the fields of an event besides its kind; one of them depends on the kind. -/
def fieldNames (field : String) : List String := ["rule_id", "rule_label", "node", field, "timestamp"]

/-- Reads the fields of an event of one kind. -/
def ofFields? (fs : List (String × Json)) (field : String) (read : Json → Option EventKind) :
    Option RuleEvent := do
  let rule ← required? fs "rule_id" str?
  let label ← required? fs "rule_label" str?
  let node ← required? fs "node" str?
  let kind ← required? fs field read
  let timestamp ← required? fs "timestamp" int64?
  some { rule, label, node, kind, timestamp }

theorem ofFields?_congr {field : String} (read : Json → Option EventKind)
    (h : ∀ name ∈ fieldNames field, lookup? fs name = lookup? fs' name) :
    ofFields? fs field read = ofFields? fs' field read := by
  unfold fieldNames at h
  simp only [List.forall_mem_cons] at h
  obtain ⟨hrule, hlabel, hnode, hkind, htimestamp, -⟩ := h
  unfold ofFields?
  rw [required?_congr hrule, required?_congr hlabel, required?_congr hnode, required?_congr hkind,
    required?_congr htimestamp]

/-- No other field has the name of the kind's. -/
theorem ne_type_of_mem {tag field : String} {read : Json → Option EventKind}
    (h : kindReader? tag = some (field, read)) {name : String} (hname : name ∈ fieldNames field) :
    name ≠ "type" := by
  unfold kindReader? at h
  rintro rfl
  split at h <;> cases h <;> revert hname <;> decide

/-- In an object the kind stands among the other fields. -/
theorem ofJson?_obj (fs : List (String × Json)) : ofJson? (.obj fs) =
    (required? fs "type" str?).bind fun tag =>
      (kindReader? tag).bind fun (field, read) => ofFields? fs field read := by
  unfold ofJson? tagged?
  simp only [Option.bind_eq_bind, Option.bind_assoc, Option.bind_some, fields?]
  congr 1
  funext tag
  cases hkind : kindReader? tag with
  | none => rfl
  | some k =>
    obtain ⟨field, read⟩ := k
    exact ofFields?_congr read fun name hname => lookup?_filter_ne (ne_type_of_mem hkind hname)

/-- The names that count in an object. Without a kind it is no event, whatever else it has. -/
def known (fs : List (String × Json)) : List String :=
  "type" :: match (required? fs "type" str?).bind kindReader? with
    | some (field, _) => fieldNames field
    | none => []

/-- Two documents of an event of the same kind that are the same under the names of that kind. -/
inductive Same : Json → Json → Prop
  | refl (j : Json) : Same j j
  | obj {fs fs' : List (String × Json)} (h : ∀ name ∈ known fs, lookup? fs name = lookup? fs' name) :
      Same (.obj fs) (.obj fs')

theorem ofJson?_congr (h : Same j j') : ofJson? j = ofJson? j' := by
  cases h with
  | refl => rfl
  | @obj fs fs' h =>
    have htype : required? fs "type" str? = required? fs' "type" str? :=
      required?_congr (h "type" List.mem_cons_self)
    rw [ofJson?_obj, ofJson?_obj, ← htype]
    cases htag : required? fs "type" str? with
    | none => rfl
    | some tag =>
      rw [Option.bind_some, Option.bind_some]
      cases hkind : kindReader? tag with
      | none => rfl
      | some k =>
        refine ofFields?_congr k.2 fun name hname => h name (List.mem_cons_of_mem _ ?_)
        rw [htag, Option.bind_some, hkind]
        exact hname

/-- All names of an event. -/
def names (e : RuleEvent) : List String := "type" :: fieldNames e.kindField.1

/-- What an event is written as under each of its names. -/
theorem field?_toJson (e : RuleEvent) : e.toJson.field? "type" = some (.str e.typeName) ∧
    e.toJson.field? "rule_id" = some (.str e.rule) ∧
    e.toJson.field? "rule_label" = some (.str e.label) ∧
    e.toJson.field? "node" = some (.str e.node) ∧
    e.toJson.field? e.kindField.1 = some e.kindField.2 ∧
    e.toJson.field? "timestamp" = some (ofInt64 e.timestamp) := by
  unfold toJson
  simp only [field?_object]
  unfold kindField
  cases e.kind <;> simp [lookup?_cons]

/-- The reader that a name stands for reads just the kind of that name, from its own field. -/
theorem kindReader?_iff {tag field : String} {read : Json → Option EventKind}
    (h : kindReader? tag = some (field, read)) {v : Json} {e : RuleEvent} :
    read v = some e.kind ↔ tag = e.typeName ∧ (field, v) = e.kindField := by
  unfold kindReader? at h
  unfold typeName kindField
  split at h <;> cases h <;> cases e.kind <;> simp [bool?_iff, uint64?_iff, str?_iff]

theorem kindReader?_typeName (e : RuleEvent) :
    ∃ read, kindReader? e.typeName = some (e.kindField.1, read) := by
  unfold typeName kindField
  cases e.kind <;> exact ⟨_, rfl⟩

/-- The fields of a kind give the event of that kind that has the same under all its names. -/
theorem ofFields?_iff {tag field : String} {read : Json → Option EventKind}
    (h : kindReader? tag = some (field, read)) {e : RuleEvent} :
    ofFields? fs field read = some e ↔ tag = e.typeName ∧ field = e.kindField.1 ∧
      ∀ name ∈ fieldNames field, lookup? fs name = e.toJson.field? name := by
  obtain ⟨-, hrule, hlabel, hnode, hkind, htimestamp⟩ := field?_toJson e
  have hread : required? fs field read = some e.kind ↔ tag = e.typeName ∧ field = e.kindField.1 ∧
      lookup? fs field = some e.kindField.2 := by
    unfold required?
    simp only [Option.bind_eq_some_iff, kindReader?_iff h, Prod.ext_iff]
    constructor
    · rintro ⟨v, hv, htag, hfield, rfl⟩
      exact ⟨htag, hfield, hv⟩
    · rintro ⟨htag, hfield, hv⟩
      exact ⟨_, hv, htag, hfield, rfl⟩
  have hall : ofFields? fs field read = some e ↔ required? fs "rule_id" str? = some e.rule ∧
      required? fs "rule_label" str? = some e.label ∧ required? fs "node" str? = some e.node ∧
      required? fs field read = some e.kind ∧ required? fs "timestamp" int64? = some e.timestamp := by
    unfold ofFields?
    simp only [Option.bind_eq_bind, Option.bind_eq_some_iff]
    constructor
    · rintro ⟨rule, hr, label, hl, node, hn, kind, hk, timestamp, ht, h⟩
      cases h
      exact ⟨hr, hl, hn, hk, ht⟩
    · rintro ⟨hr, hl, hn, hk, ht⟩
      exact ⟨_, hr, _, hl, _, hn, _, hk, _, ht, rfl⟩
  rw [hall, hread]
  unfold fieldNames
  simp only [required?_iff str?_iff, required?_iff int64?_iff, List.forall_mem_cons, hrule, hlabel, hnode,
    htimestamp]
  constructor
  · rintro ⟨hr, hl, hn, ⟨htag, rfl, hk⟩, ht⟩
    exact ⟨htag, rfl, hr, hl, hn, hk.trans hkind.symm, ht, List.forall_mem_nil _⟩
  · rintro ⟨htag, rfl, hr, hl, hn, hk, ht, -⟩
    exact ⟨hr, hl, hn, ⟨htag, rfl, hk.trans hkind⟩, ht⟩

/-- **An object is read as the event that has the same under all its names.** -/
theorem ofJson?_obj_iff {e : RuleEvent} : ofJson? (.obj fs) = some e ↔
    ∀ name ∈ e.names, lookup? fs name = e.toJson.field? name := by
  rw [ofJson?_obj]
  unfold names
  simp only [Option.bind_eq_some_iff, required?_iff str?_iff, List.forall_mem_cons,
    (field?_toJson e).1]
  constructor
  · rintro ⟨tag, htag, ⟨field, read⟩, hreader, hfields⟩
    obtain ⟨rfl, rfl, hall⟩ := (ofFields?_iff hreader).mp hfields
    exact ⟨htag, hall⟩
  · rintro ⟨htag, hall⟩
    obtain ⟨read, hreader⟩ := kindReader?_typeName e
    exact ⟨e.typeName, htag, (e.kindField.1, read), hreader,
      (ofFields?_iff hreader).mpr ⟨rfl, rfl, hall⟩⟩

/-- In an array the kind stands before the other fields. -/
theorem ofJson?_arr (v : Json) (rest : List Json) : ofJson? (.arr (v :: rest)) =
    v.str?.bind fun tag => (kindReader? tag).bind fun (field, read) =>
      (fields? (fieldNames field) (.arr rest)).bind fun fs => ofFields? fs field read := by
  cases v <;> rfl

/-- **A document is read as the event that has the same under all its names.** -/
theorem ofJson?_iff {e : RuleEvent} : ofJson? j = some e ↔ ∃ fs, fields? e.names j = some fs ∧
    ∀ name ∈ e.names, lookup? fs name = e.toJson.field? name := by
  -- the kind is told by the first name, so what is said of all names says of which kind the others are
  unfold names
  simp only [List.forall_mem_cons, (field?_toJson e).1]
  cases j with
  | obj fs => simp [fields?, ofJson?_obj_iff, names, (field?_toJson e).1]
  | arr items =>
    cases items with
    | nil => simp [fields?, ofJson?, tagged?]
    | cons v rest =>
      rw [ofJson?_arr, fields?_cons]
      simp only [Option.bind_eq_some_iff, Option.map_eq_some_iff, str?_iff]
      constructor
      · rintro ⟨tag, rfl, ⟨field, read⟩, hreader, fs, hfs, h⟩
        obtain ⟨rfl, rfl, hall⟩ := (ofFields?_iff hreader).mp h
        exact ⟨_, ⟨fs, hfs, rfl⟩, by rw [lookup?_cons, if_pos rfl], fun name hname =>
          (lookup?_cons_ne (ne_type_of_mem hreader hname).symm).trans (hall name hname)⟩
      · rintro ⟨_, ⟨fs, hfs, rfl⟩, htype, hall⟩
        rw [lookup?_cons, if_pos rfl] at htype
        cases htype
        obtain ⟨read, hreader⟩ := kindReader?_typeName e
        refine ⟨e.typeName, rfl, (e.kindField.1, read), hreader, fs, hfs,
          (ofFields?_iff hreader).mpr ⟨rfl, rfl, fun name hname => ?_⟩⟩
        exact (lookup?_cons_ne (ne_type_of_mem hreader hname).symm).symm.trans (hall name hname)
  | _ => simp [fields?, ofJson?, tagged?]

theorem ofJson?_toJson (e : RuleEvent) : ofJson? e.toJson = some e :=
  ofJson?_obj_iff.mpr fun _ _ => rfl

theorem writable_toJson (e : RuleEvent) (depth : Nat) : Writable (depth + 1) e.toJson := by
  refine writable_object ?_
  simp only [List.forall_mem_cons]
  refine ⟨.str _ _, .str _ _, .str _ _, .str _ _, ?_, writable_ofInt64 _ _, List.forall_mem_nil _⟩
  unfold kindField
  cases e.kind with
  | evaluated met => exact .bool _ met
  | executed duration => exact writable_ofUInt64 _ duration
  | failed error => exact .str _ error

end RuleEvent

/-! ## Records of runs -/

theorem Aspect.ofJson?_iff {j : Json} {a : Aspect} :
    Aspect.ofJson? j = some a ↔ j = a.toJson ∨ j = .obj [(a.name, .null)] := by
  have hname : ∀ s, ofName? s = some a ↔ s = a.name := by
    intro s
    unfold ofName?
    cases a <;> split <;> simp_all [name]
  constructor
  · intro h
    unfold ofJson? at h
    split at h
    · next s =>
      obtain rfl := (hname s).mp h
      exact .inl rfl
    · next s =>
      obtain rfl := (hname s).mp h
      exact .inr rfl
    · cases h
  · rintro (rfl | rfl)
    · exact (hname a.name).mpr rfl
    · exact (hname a.name).mpr rfl

namespace RunRecord

variable {fs fs' : List (String × Json)} {j j' : Json}

/-- The names under which a record is written as one value alone. -/
def plainNames : List String := ["rule_id", "label", "condition", "executed", "success", "duration_ms"]

def errorToJson : Option String → Json
  | some e => .str e
  | none => .null

theorem textOrNull?_iff {j : Json} {error : Option String} :
    textOrNull? j = some error ↔ j = errorToJson error := by
  cases j <;> cases error <;> simp [textOrNull?, errorToJson]

/-- What a record is written as under each of its names. -/
theorem field?_toJson (r : RunRecord) : r.toJson.field? "rule_id" = some (.str r.rule) ∧
    r.toJson.field? "label" = some (.str r.label) ∧
    r.toJson.field? "evaluation_type" = some r.aspect.toJson ∧
    r.toJson.field? "condition" = some (.bool r.condition) ∧
    r.toJson.field? "executed" = some (.bool r.executed) ∧
    r.toJson.field? "success" = some (.bool r.success) ∧
    r.toJson.field? "error" = some (errorToJson r.error) ∧
    r.toJson.field? "duration_ms" = some (ofUInt64 r.duration) := by
  unfold toJson
  simp only [field?_object]
  cases r.error <;> simp [lookup?_cons, errorToJson]

/-- The record that these fields stand for. Its aspect may be spelled in two ways, and no error may be
absent. -/
structure Given (fs : List (String × Json)) (r : RunRecord) : Prop where
  plain : ∀ name ∈ plainNames, lookup? fs name = r.toJson.field? name
  aspect : ∃ v, lookup? fs "evaluation_type" = some v ∧
    (v = r.aspect.toJson ∨ v = .obj [(r.aspect.name, .null)])
  error : (lookup? fs "error").or (some .null) = r.toJson.field? "error"

theorem given_iff {r : RunRecord} : Given fs r ↔
    required? fs "rule_id" str? = some r.rule ∧ required? fs "label" str? = some r.label ∧
    required? fs "evaluation_type" Aspect.ofJson? = some r.aspect ∧
    required? fs "condition" bool? = some r.condition ∧
    required? fs "executed" bool? = some r.executed ∧
    required? fs "success" bool? = some r.success ∧
    optional? fs "error" textOrNull? none = some r.error ∧
    required? fs "duration_ms" uint64? = some r.duration := by
  obtain ⟨hrule, hlabel, -, hcondition, hexecuted, hsuccess, herror, hduration⟩ := field?_toJson r
  have haspect : required? fs "evaluation_type" Aspect.ofJson? = some r.aspect ↔
      ∃ v, lookup? fs "evaluation_type" = some v ∧
        (v = r.aspect.toJson ∨ v = .obj [(r.aspect.name, .null)]) := by
    unfold required?
    simp only [Option.bind_eq_some_iff, Aspect.ofJson?_iff]
  have hplain : (∀ name ∈ plainNames, lookup? fs name = r.toJson.field? name) ↔
      required? fs "rule_id" str? = some r.rule ∧ required? fs "label" str? = some r.label ∧
      required? fs "condition" bool? = some r.condition ∧
      required? fs "executed" bool? = some r.executed ∧
      required? fs "success" bool? = some r.success ∧
      required? fs "duration_ms" uint64? = some r.duration := by
    simp only [plainNames, List.forall_mem_cons, List.not_mem_nil, false_implies, implies_true,
      and_true, required?_iff str?_iff, required?_iff bool?_iff, required?_iff uint64?_iff, hrule,
      hlabel, hcondition, hexecuted, hsuccess, hduration]
  rw [haspect, optional?_iff textOrNull?_iff, ← herror]
  constructor
  · rintro ⟨hp, ha, he⟩
    obtain ⟨hr, hl, hc, hx, hs, hd⟩ := hplain.mp hp
    exact ⟨hr, hl, ha, hc, hx, hs, he, hd⟩
  · rintro ⟨hr, hl, ha, hc, hx, hs, he, hd⟩
    exact ⟨hplain.mpr ⟨hr, hl, hc, hx, hs, hd⟩, ha, he⟩

/-- **Records are read from just the documents that give them.** -/
theorem ofJson?_iff {r : RunRecord} : ofJson? j = some r ↔ ∃ fs, fields? j = some fs ∧ Given fs r := by
  simp only [given_iff]
  constructor
  · intro h
    unfold ofJson? at h
    simp only [Option.bind_eq_bind, Option.bind_eq_some_iff] at h
    obtain ⟨fs, hfs, rule, hr, label, hl, aspect, ha, condition, hc, executed, hx, success, hs, error, he,
      duration, hd, h⟩ := h
    cases h
    exact ⟨fs, hfs, hr, hl, ha, hc, hx, hs, he, hd⟩
  · rintro ⟨fs, hfs, hr, hl, ha, hc, hx, hs, he, hd⟩
    unfold ofJson?
    simp only [Option.bind_eq_bind, hfs, Option.bind_some, hr, hl, ha, hc, hx, hs, he, hd]

/-- By the order of the names, the time last, and without the last two of them. -/
example :
    let items : List Json := [.str "r1", .str "L", .str "attribute", .bool true, .bool false, .bool true,
      .null]
    ofJson? (.arr (items ++ [.int 3, .str "2025-01-01T00:00:00Z"])) = some
        { rule := "r1", label := "L", aspect := .attribute, condition := true, executed := false,
          success := true, error := none, duration := 3 } ∧
      ofJson? (.arr items) = none := by
  decide +kernel

theorem ofJson?_toJson (r : RunRecord) : ofJson? r.toJson = some r := by
  obtain ⟨-, -, haspect, -, -, -, herror, -⟩ := field?_toJson r
  refine ofJson?_iff.mpr ⟨_, rfl, fun _ _ => rfl, ⟨_, haspect, .inl rfl⟩, ?_⟩
  show (r.toJson.field? "error").or _ = r.toJson.field? "error"
  rw [herror]
  rfl

theorem ofJson?_congr (h : Agree names j j') : ofJson? j = ofJson? j' := by
  cases h with
  | refl => rfl
  | @obj fs fs' h =>
    simp only [names, List.forall_mem_cons] at h
    obtain ⟨hrule, hlabel, haspect, hcondition, hexecuted, hsuccess, herror, hduration, -⟩ := h
    unfold ofJson?
    simp only [fields?, Json.fields?, Option.bind_eq_bind, Option.bind_some,
      required?_congr (eq_of_rel hrule), required?_congr (eq_of_rel hlabel),
      required?_congr (eq_of_rel haspect), required?_congr (eq_of_rel hcondition),
      required?_congr (eq_of_rel hexecuted), required?_congr (eq_of_rel hsuccess),
      required?_congr (eq_of_rel hduration),
      optional?_congr herror fun _ _ hv => congrArg textOrNull? hv]

theorem writable_toJson (r : RunRecord) (depth : Nat) : Writable (depth + 1) r.toJson := by
  refine writable_object ?_
  simp only [List.forall_mem_cons]
  refine ⟨.str _ _, .str _ _, .str _ _, .bool _ _, .bool _ _, .bool _ _, ?_, writable_ofUInt64 _ _,
    List.forall_mem_nil _⟩
  cases r.error with
  | none => exact .null _
  | some error => exact .str _ error

end RunRecord

/-! ## Formats -/

/-- What a format owes to those who write and read it. Documents that are the `Same` differ only in fields
that it does not know. -/
structure Format {α : Type} (write : α → Json) (read? : Json → Option α)
    (Same : Json → Json → Prop) : Prop where
  back : ∀ a, read? (write a) = some a
  text : ∀ a, (Json.read? (Json.write (write a))).bind read? = some a
  /-- Whatever document it was read from. -/
  again : ∀ j a, read? j = some a → read? (write a) = some a
  blind : ∀ j j', Same j j' → read? j = read? j'

/-- Only the nesting of what is written limits its text: a reader goes no deeper than 127 levels. -/
theorem Format.of {α : Type} {write : α → Json} {read? : Json → Option α} {Same : Json → Json → Prop}
    (back : ∀ a, read? (write a) = some a) (writable : ∀ a, Writable 127 (write a))
    (blind : ∀ j j', Same j j' → read? j = read? j') : Format write read? Same where
  back := back
  text a := by rw [(writable a).read?_write, Option.bind_some, back]
  again _ a _ := back a
  blind := blind

/-- **What is written reads back, and nothing is read from what does not say it.** Fields that a format does
not know do not count. Settings are read with the default in the place of every field that is absent, on
either level, and of no other. A document, by its names or in the order of these, is read as an event or as
a record of a run just if it has under the names of these what they are written as; only that there was no
error may be left out. -/
theorem formats_read_back :
    Format Settings.toJson Settings.ofJson? Settings.Same ∧
    Format RuleEvent.toJson RuleEvent.ofJson? RuleEvent.Same ∧
    Format RunRecord.toJson RunRecord.ofJson? (Agree RunRecord.names) ∧
    (∀ j s, Settings.ofJson? j = some s ↔
      ∃ fs, fields? Settings.names j = some fs ∧ Settings.Given fs s) ∧
    (∀ j e, RuleEvent.ofJson? j = some e ↔ ∃ fs, fields? e.names j = some fs ∧
      ∀ name ∈ e.names, lookup? fs name = e.toJson.field? name) ∧
    ∀ j r, RunRecord.ofJson? j = some r ↔
      ∃ fs, RunRecord.fields? j = some fs ∧ RunRecord.Given fs r :=
  ⟨.of Settings.ofJson?_toJson (·.writable_toJson 125) fun _ _ => Settings.ofJson?_congr,
    .of RuleEvent.ofJson?_toJson (·.writable_toJson 126) fun _ _ => RuleEvent.ofJson?_congr,
    .of RunRecord.ofJson?_toJson (·.writable_toJson 126) fun _ _ => RunRecord.ofJson?_congr,
    fun _ _ => Settings.ofJson?_iff, fun _ _ => RuleEvent.ofJson?_iff,
    fun _ _ => RunRecord.ofJson?_iff⟩

end ReactiveRules
