import Mathlib.Data.Finmap
import ReactiveRules.Proofs.Rule.Attachment

/-!
# `Proofs/Rule/Roster.lean` — a registry is a finite map

A registry keeps every instance ever made, and of each id which instance is in force. Seen from
outside it is a finite map from ids to definitions, a *roster*, in which each accepted definition takes
the place of the one with its id. **`Registry.Enrols` says that a registry shows a roster, and which of
its instances are retired**: those that have been put in force and are not any more. Whatever is done to
the registry, and whatever becomes of the instances meanwhile, keeps it (`Registry.Enrols.after`).
-/

set_option autoImplicit false

namespace ReactiveRules

/-- An instance that nothing has happened to yet. -/
structure Instance.Untouched (i : Instance) (d : Definition) : Prop where
  definition : i.definition = d
  facts : i.facts = .empty
  runners : i.runners = 0 ∧ i.slot.waiting = []
  counters : i.triggers = 0 ∧ i.executions = 0 ∧ i.failures = 0
  paused : i.paused = false
  dirty : i.dirty = false
  retired : i.retired = false
  pending : i.pending = none
  rested : ∀ t, i.inRefractory t = false

theorem Instance.untouched_ofDefinition (d : Definition) :
    (Instance.ofDefinition d).Untouched d := by
  constructor <;> first | rfl | exact ⟨rfl, rfl⟩ | exact ⟨rfl, rfl, rfl⟩ | exact fun _ => rfl

/-- The first rule is served before the second: it has the lower priority value, or the same and the
lower id. -/
def Definition.Precedes (d e : Definition) : Prop :=
  d.priority < e.priority ∨ d.priority = e.priority ∧ d.id < e.id

theorem Definition.Precedes.asymm {d e : Definition} (h : d.Precedes e) : ¬ e.Precedes d := by
  rcases h with h | ⟨he, h⟩ <;> rintro (h' | ⟨he', h'⟩)
  · exact Int32.lt_asymm h h'
  · exact Int32.lt_irrefl (he' ▸ h)
  · exact Int32.lt_irrefl (he ▸ h')
  · exact String.lt_asymm h h'

namespace Registry

/-! ## What happens to a registry -/

/-- What runs make of the instances of a registry. An instance can come to have any facts, counters, slot
and the like; its definition stays, and so does whether it is retired. -/
structure Work where
  apply : Nat → Instance → Instance
  definition : ∀ n i, (apply n i).definition = i.definition
  retired : ∀ n i, (apply n i).retired = i.retired

/-- What happens to a registry. -/
inductive Incident where
  | move (m : Move)
  /-- Registers a rule that is otherwise as in the defaults. -/
  | update (id label condition action : String) (priority : Int32) (defaults : RuleDefaults)
  /-- Makes an instance without putting it in force. -/
  | make (d : Definition)
  | work (w : Work)

/-- The definition that an incident registers. -/
def Incident.definition? : Incident → Option Definition
  | .move (.register d) => some d
  | .update id label condition action priority defaults =>
    some { Definition.ofDefaults id label condition action defaults with priority }
  | _ => none

/-- The instances have been at work. -/
def worked (r : Registry) (w : Work) : Registry :=
  { r with instances := r.instances.mapIdx w.apply }

def after (r : Registry) : Incident → Registry
  | .move m => r.play m
  | .update id label condition action priority defaults =>
    (r.register
      { Definition.ofDefaults id label condition action defaults with priority }).1
  | .make d => (r.add d).1
  | .work w => r.worked w

/-- The definition that counts for each id. -/
abbrev Roster := Finmap fun _ : String => Definition

/-- A definition that is accepted takes the place of the one with its id. -/
def Roster.register (m : Roster) (d : Definition) : Roster :=
  match d.check with
  | .ok () => m.insert d.id d
  | .error _ => m

def Roster.after (m : Roster) : Incident → Roster
  | .move (.deregister id) => m.erase id
  | i => (i.definition?.map m.register).getD m

/-- The incident puts the instance of this number in force. -/
def Installs (r : Registry) (i : Incident) (n : Nat) : Prop :=
  ∃ d old, i.definition? = some d ∧ (r.register d).2 = .ok ⟨n, old⟩

/-- At one of the incidents, in this order, the instance of this number has been put in force. -/
def Installed (r : Registry) (is : List Incident) (n : Nat) : Prop :=
  ∃ js i, js ++ [i] <+: is ∧ (js.foldl after r).Installs i n

theorem installed_nil (r : Registry) (n : Nat) : ¬ r.Installed [] n := by
  rintro ⟨js, i, hp, -⟩
  simpa using List.prefix_nil.mp hp

theorem installed_concat (r : Registry) (is : List Incident) (i : Incident) (n : Nat) :
    r.Installed (is ++ [i]) n ↔ r.Installed is n ∨ (is.foldl after r).Installs i n := by
  constructor
  · rintro ⟨js, j, hp, hj⟩
    rcases List.prefix_concat_iff.mp hp with heq | hp
    · obtain ⟨rfl, hij⟩ := List.append_inj' heq rfl
      obtain rfl : j = i := by simpa using hij
      exact .inr hj
    · exact .inl ⟨js, j, hp, hj⟩
  · rintro (⟨js, j, hp, hj⟩ | hi)
    · exact ⟨js, j, hp.trans (List.prefix_append _ _), hj⟩
    · exact ⟨is, i, List.prefix_rfl, hi⟩

/-! ## Single operations -/

section

variable {r : Registry} {id : String} {n : Nat}

theorem number?_iff (hd : (r.registered.map (·.1)).Nodup) :
    r.number? id = some n ↔ (id, n) ∈ r.registered := by
  unfold number?
  rw [Option.map_eq_some_iff]
  constructor
  · rintro ⟨p, hp, rfl⟩
    have hid : p.1 = id := by simpa using List.find?_some hp
    exact hid ▸ List.mem_of_find?_eq_some hp
  · intro h
    obtain ⟨p, hp⟩ : ∃ p, r.registered.find? (·.1 == id) = some p :=
      Option.isSome_iff_exists.mp (List.find?_isSome.mpr ⟨_, h, beq_self_eq_true id⟩)
    have hid : p.1 = id := by simpa using List.find?_some hp
    -- there is only one entry with the id
    have hpn := List.inj_on_of_nodup_map hd (List.mem_of_find?_eq_some hp) h hid
    exact ⟨p, hp, by rw [hpn]⟩

theorem register_refused {d : Definition} {e : RuleError} (h : d.check = .error e) :
    r.register d = (r, .error e) := by
  unfold register
  rw [h]

/-- Nothing is in force for the id any more; what was is retired. -/
def vacate (r : Registry) (id : String) : Registry :=
  { r with
    registered := r.registered.filter (·.1 != id)
    instances :=
      match r.number? id with
      | some n => r.instances.modify n (.mapRule Rule.retire)
      | none => r.instances }

/-- A new instance is in force for an id for which nothing is. -/
def install (r : Registry) (d : Definition) : Registry :=
  { r with
    registered := r.registered ++ [(d.id, r.instances.length)]
    instances := r.instances ++ [.ofDefinition d] }

theorem instances_vacate_length (r : Registry) (id : String) :
    (r.vacate id).instances.length = r.instances.length := by
  unfold vacate
  cases r.number? id <;> simp

theorem getElem?_vacate (r : Registry) (id : String) (k : Nat) :
    (r.vacate id).instances[k]? = if r.number? id = some k
      then (r.instances[k]?).map (.mapRule Rule.retire) else r.instances[k]? := by
  unfold vacate
  cases r.number? id with
  | none => simp
  | some n =>
    dsimp only
    rw [List.getElem?_modify]
    by_cases hk : n = k <;> simp [hk]

/-- What is added at the end is out of reach of a change further in front. -/
theorem modify_concat {α : Type} {xs : List α} {n : Nat} (hn : n < xs.length) (f : α → α) (a : α) :
    (xs ++ [a]).modify n f = xs.modify n f ++ [a] := by
  induction xs generalizing n with
  | nil => cases hn
  | cons x rest ih =>
    cases n with
    | zero => rfl
    | succ n => simp [ih (Nat.lt_of_succ_lt_succ hn)]

/-- An accepted definition takes the next number and the place of the one with its id. -/
theorem register_accepted {d : Definition} (h : d.check = .ok ())
    (hlt : ∀ old, r.number? d.id = some old → old < r.instances.length) :
    (r.register d).2 = .ok ⟨r.instances.length, r.number? d.id⟩ ∧
      (r.register d).1.registered = ((r.vacate d.id).install d).registered ∧
      (r.register d).1.instances = ((r.vacate d.id).install d).instances := by
  have hlen := r.instances_vacate_length d.id
  unfold register
  rw [h]
  dsimp only [add, install]
  rw [hlen]
  unfold vacate
  cases hn : r.number? d.id with
  | none => exact ⟨rfl, rfl, rfl⟩
  | some old =>
    refine ⟨rfl, rfl, ?_⟩
    exact modify_concat (hlt old hn) _ _

/-- Whether or not the id is known, what is in force for it is taken out. -/
theorem deregister_vacates (r : Registry) (id : String) :
    (r.deregister id).1.registered = (r.vacate id).registered ∧
      (r.deregister id).1.instances = (r.vacate id).instances := by
  unfold deregister vacate
  cases hn : r.number? id with
  | none =>
    refine ⟨(List.filter_eq_self.mpr fun p hp => ?_).symm, rfl⟩
    have hp' := (List.find?_eq_none.mp (Option.map_eq_none_iff.mp hn)) p hp
    simpa using hp'
  | some n =>
    dsimp only [retire, modify]
    cases r.host <;> exact ⟨rfl, rfl⟩

theorem observe_rules (r : Registry) (node id : String) :
    (r.observe node id).1.registered = r.registered ∧
      (r.observe node id).1.instances = r.instances := by
  unfold observe
  split
  · exact ⟨rfl, rfl⟩
  · split <;> exact ⟨rfl, rfl⟩

end

/-! ## A registry and its roster -/

/-- The registry shows a roster. `was` tells which instances have been put in force. -/
structure Enrols (r : Registry) (m : Roster) (was : Nat → Prop) : Prop where
  distinct : (r.registered.map (·.1)).Nodup
  current : ∀ p ∈ r.registered, ∃ i, r.instances[p.2]? = some i ∧ i.id = p.1 ∧
    m.lookup p.1 = some i.definition
  known : ∀ id ∈ m, r.contains id = true
  placed : ∀ p ∈ r.registered, was p.2
  made : ∀ n, was n → n < r.instances.length
  retired : ∀ n i, r.instances[n]? = some i →
    (i.retired = true ↔ was n ∧ ∀ p ∈ r.registered, p.2 ≠ n)

namespace Enrols

variable {r r' : Registry} {m : Roster} {was : Nat → Prop} {id : String} {n : Nat}

theorem blank (host : Option (Graph Unit)) : Enrols { host } ∅ fun _ => False where
  distinct := List.nodup_nil
  current := fun _ hp => absurd hp List.not_mem_nil
  known := fun _ hid => absurd hid Finmap.notMem_empty
  placed := fun _ hp => absurd hp List.not_mem_nil
  made := fun _ hn => hn.elim
  retired := fun _ _ hi => by cases hi

theorem number_lt (h : Enrols r m was) (hn : r.number? id = some n) : n < r.instances.length :=
  h.made n (h.placed (id, n) ((number?_iff h.distinct).mp hn))

/-- Each instance is in force for at most one id, its own. -/
theorem id_eq (h : Enrols r m was) {p : String × Nat} (hp : p ∈ r.registered)
    {q : String × Nat} (hq : q ∈ r.registered) (hn : p.2 = q.2) : p = q := by
  obtain ⟨i, hi, hpid, -⟩ := h.current p hp
  obtain ⟨j, hj, hqid, -⟩ := h.current q hq
  obtain rfl : i = j := Option.some.inj (hi.symm.trans (hn ▸ hj))
  exact Prod.ext (hpid.symm.trans hqid) hn

/-- Instances may change in whatever a registry does not tell of them, and new ones may be made. -/
theorem same (h : Enrols r m was) (hr : r'.registered = r.registered)
    (hold : ∀ (k : Nat) (i : Instance), r.instances[k]? = some i → ∃ j : Instance,
      r'.instances[k]? = some j ∧ j.definition = i.definition ∧ j.retired = i.retired)
    (hnew : ∀ (k : Nat) (i : Instance), r.instances.length ≤ k → r'.instances[k]? = some i →
      i.retired = false) :
    Enrols r' m was where
  distinct := hr ▸ h.distinct
  current := by
    intro p hp
    obtain ⟨i, hi, hid, hm⟩ := h.current p (hr ▸ hp)
    obtain ⟨j, hj, hdef, -⟩ := hold _ i hi
    refine ⟨j, hj, ?_, ?_⟩
    · exact (congrArg Definition.id hdef).trans hid
    · rw [hm, hdef]
  known := by
    intro id hid
    unfold contains number?
    rw [hr]
    exact h.known id hid
  placed := hr ▸ h.placed
  made := by
    intro n hn
    obtain ⟨j, hj, -⟩ := hold n _ (List.getElem?_eq_getElem (h.made n hn))
    exact (List.getElem?_eq_some_iff.mp hj).1
  retired := by
    intro k j hj
    rw [hr]
    by_cases hk : k < r.instances.length
    · obtain ⟨j', hj', -, hret⟩ := hold k _ (List.getElem?_eq_getElem hk)
      obtain rfl : j' = j := Option.some.inj (hj'.symm.trans hj)
      rw [hret]
      exact h.retired k _ (List.getElem?_eq_getElem hk)
    -- an instance that has just been made has never been in force
    · rw [hnew k j (Nat.le_of_not_lt hk) hj]
      exact iff_of_false Bool.false_ne_true fun hw => hk (h.made k hw.1)

theorem congr (h : Enrols r m was) (hr : r'.registered = r.registered)
    (hi : r'.instances = r.instances) : Enrols r' m was := by
  refine h.same hr (fun k i hk => ⟨i, hi ▸ hk, rfl, rfl⟩) fun k i hk hj => ?_
  rw [hi, List.getElem?_eq_none hk] at hj
  cases hj

theorem worked (h : Enrols r m was) (w : Work) : Enrols (r.worked w) m was := by
  have hget : ∀ k, (r.worked w).instances[k]? = (r.instances[k]?).map (w.apply k) := by
    intro k
    simp [Registry.worked]
  refine h.same rfl (fun k i hi => ?_) fun k i hk hi => ?_
  · exact ⟨w.apply k i, by rw [hget, hi]; rfl, w.definition k i, w.retired k i⟩
  · rw [hget, List.getElem?_eq_none hk] at hi
    cases hi

theorem make (h : Enrols r m was) (d : Definition) : Enrols (r.add d).1 m was := by
  refine h.same rfl (fun k i hi => ?_) fun k i hk hi => ?_
  · have hk := (List.getElem?_eq_some_iff.mp hi).1
    exact ⟨i, (List.getElem?_append_left hk).trans hi, rfl, rfl⟩
  · rw [add, List.getElem?_append_right hk, List.getElem?_singleton] at hi
    split at hi
    · cases hi
      rfl
    · cases hi

/-- What is taken out is retired, and nothing else is. -/
theorem vacate (h : Enrols r m was) (id : String) : Enrols (r.vacate id) (m.erase id) was := by
  have hmem : ∀ p, p ∈ (r.vacate id).registered ↔ p ∈ r.registered ∧ p.1 ≠ id := by
    intro p
    rw [Registry.vacate, List.mem_filter, bne_iff_ne]
  -- whoever stays in force is another instance than the one taken out
  have hother : ∀ p ∈ r.registered, p.1 ≠ id → r.number? id ≠ some p.2 := by
    intro p hp hne hn
    exact hne (congrArg Prod.fst (h.id_eq ((number?_iff h.distinct).mp hn) hp rfl)).symm
  refine ⟨?_, ?_, ?_, ?_, ?_, ?_⟩
  · exact h.distinct.sublist (List.filter_sublist.map _)
  · intro p hp
    obtain ⟨hp, hne⟩ := (hmem p).mp hp
    obtain ⟨i, hi, hid, hm⟩ := h.current p hp
    refine ⟨i, ?_, hid, ?_⟩
    · rw [getElem?_vacate, if_neg (hother p hp hne), hi]
    · rw [Finmap.lookup_erase_ne hne, hm]
  · intro other ho
    obtain ⟨hne, ho⟩ := Finmap.mem_erase.mp ho
    obtain ⟨p, hp, rfl⟩ := contains_iff.mp (h.known other ho)
    exact contains_iff.mpr ⟨p, (hmem p).mpr ⟨hp, hne⟩, rfl⟩
  · exact fun p hp => h.placed p ((hmem p).mp hp).1
  · exact fun n hn => (r.instances_vacate_length id).symm ▸ h.made n hn
  · intro k j hj
    rw [getElem?_vacate] at hj
    split at hj
    · next hn =>
      have hin := (number?_iff h.distinct).mp hn
      obtain ⟨i, -, rfl⟩ := Option.map_eq_some_iff.mp hj
      refine iff_of_true rfl ⟨h.placed _ hin, fun p hp hk => ?_⟩
      obtain ⟨hp, hne⟩ := (hmem p).mp hp
      exact hother p hp hne (hk ▸ hn)
    · next hn =>
      rw [h.retired k j hj]
      refine and_congr_right fun _ => ⟨fun ho p hp => ho p ((hmem p).mp hp).1, fun ho p hp hk => ?_⟩
      by_cases hne : p.1 = id
      · exact hn ((number?_iff h.distinct).mpr (hne ▸ hk ▸ hp))
      · exact ho p ((hmem p).mpr ⟨hp, hne⟩) hk

/-- A new instance comes into force. -/
theorem install (h : Enrols r m was) {d : Definition} (hd : d.id ∉ m) :
    Enrols (r.install d) (m.insert d.id d) fun n => was n ∨ n = r.instances.length := by
  have hlt : ∀ p ∈ r.registered, p.2 < r.instances.length := fun p hp => h.made _ (h.placed p hp)
  have hne : ∀ p ∈ r.registered, p.1 ≠ d.id := by
    intro p hp hid
    obtain ⟨i, -, -, hm⟩ := h.current p hp
    exact hd (hid ▸ Finmap.mem_of_lookup_eq_some hm)
  have hmem : ∀ p, p ∈ (r.install d).registered ↔
      p ∈ r.registered ∨ p = (d.id, r.instances.length) := by
    intro p
    rw [Registry.install, List.mem_append, List.mem_singleton]
  have hlen : (r.install d).instances.length = r.instances.length + 1 := by
    simp [Registry.install]
  refine ⟨?_, ?_, ?_, ?_, ?_, ?_⟩
  · rw [Registry.install, List.map_append, List.nodup_append]
    refine ⟨h.distinct, List.nodup_singleton _, ?_⟩
    rintro id hid _ hid' rfl
    obtain ⟨p, hp, rfl⟩ := List.mem_map.mp hid
    exact hne p hp (List.mem_singleton.mp hid')
  · intro p hp
    rcases (hmem p).mp hp with hp | rfl
    · obtain ⟨i, hi, hid, hm⟩ := h.current p hp
      refine ⟨i, (List.getElem?_append_left (hlt p hp)).trans hi, hid, ?_⟩
      rw [Finmap.lookup_insert_of_ne _ (hne p hp), hm]
    · exact ⟨_, List.getElem?_concat_length, rfl, Finmap.lookup_insert m⟩
  · intro id hid
    rcases Finmap.mem_insert.mp hid with rfl | hid
    · exact contains_iff.mpr ⟨_, (hmem _).mpr (.inr rfl), rfl⟩
    · obtain ⟨p, hp, rfl⟩ := contains_iff.mp (h.known id hid)
      exact contains_iff.mpr ⟨p, (hmem p).mpr (.inl hp), rfl⟩
  · exact fun p hp => ((hmem p).mp hp).imp (h.placed p) (congrArg Prod.snd)
  · rintro n (hn | rfl)
    · exact hlen ▸ Nat.lt_succ_of_lt (h.made n hn)
    · exact hlen ▸ Nat.lt_succ_self _
  · intro k j hj
    by_cases hk : k < r.instances.length
    · rw [h.retired k j ((List.getElem?_append_left hk).symm.trans hj),
        or_iff_left (Nat.ne_of_lt hk)]
      refine and_congr_right fun _ => ⟨fun ho p hp => ?_, fun ho p hp => ho p ((hmem p).mpr (.inl hp))⟩
      rcases (hmem p).mp hp with hp | rfl
      · exact ho p hp
      · exact Nat.ne_of_gt hk
    · have hk' : k = r.instances.length :=
        Nat.eq_of_lt_succ_of_not_lt (hlen ▸ (List.getElem?_eq_some_iff.mp hj).1) hk
      subst hk'
      obtain rfl : _ = j := Option.some.inj (List.getElem?_concat_length.symm.trans hj)
      exact iff_of_false Bool.false_ne_true fun ho => ho.2 _ ((hmem _).mpr (.inr rfl)) rfl

/-- **A definition that is accepted comes into force; the one it replaces is retired.** -/
theorem register (h : Enrols r m was) {d : Definition} (hd : d.check = .ok ()) :
    Enrols (r.register d).1 (m.insert d.id d) fun n => was n ∨ n = r.instances.length := by
  obtain ⟨-, hreg, hinst⟩ := register_accepted hd fun old ho => h.number_lt ho
  have hi := (h.vacate d.id).install (d := d) Finmap.notMem_erase_self
  have hm : (m.erase d.id).insert d.id d = m.insert d.id d := by
    refine Finmap.ext_lookup fun id => ?_
    by_cases hid : id = d.id
    · subst hid
      rw [Finmap.lookup_insert, Finmap.lookup_insert]
    · rw [Finmap.lookup_insert_of_ne _ hid, Finmap.lookup_insert_of_ne _ hid,
        Finmap.lookup_erase_ne hid]
  rw [hm, r.instances_vacate_length d.id] at hi
  exact hi.congr hreg hinst

theorem deregister (h : Enrols r m was) (id : String) :
    Enrols (r.deregister id).1 (m.erase id) was :=
  (h.vacate id).congr (r.deregister_vacates id).1 (r.deregister_vacates id).2

/-- What an incident does that registers a definition. -/
theorem registers (h : Enrols r m was) {i : Incident} {d : Definition}
    (hi : i.definition? = some d) :
    Enrols (r.register d).1 (m.register d) fun n => was n ∨ r.Installs i n := by
  have hinst : ∀ n, r.Installs i n ↔ ∃ old, (r.register d).2 = .ok ⟨n, old⟩ := by
    intro n
    simp [Installs, hi]
  cases hd : d.check with
  | error e =>
    have hsame : (fun n => was n ∨ r.Installs i n) = was := by
      funext n
      rw [hinst, register_refused hd]
      simp
    rw [hsame, register_refused hd, Roster.register, hd]
    exact h
  | ok u =>
    have hans := (register_accepted hd fun old ho => h.number_lt ho).1
    have hsame : (fun n => was n ∨ r.Installs i n) = fun n => was n ∨ n = r.instances.length := by
      funext n
      rw [hinst, hans]
      simp [eq_comm]
    rw [hsame, Roster.register, hd]
    exact h.register hd

/-- **Whatever happens, the registry shows the roster.** -/
theorem after (h : Enrols r m was) (i : Incident) :
    Enrols (r.after i) (m.after i) fun n => was n ∨ r.Installs i n := by
  -- an incident that registers nothing puts nothing in force
  have hquiet : i.definition? = none → Enrols (r.after i) (m.after i) was →
      Enrols (r.after i) (m.after i) fun n => was n ∨ r.Installs i n := by
    intro hi h'
    have hsame : (fun n => was n ∨ r.Installs i n) = was :=
      funext fun n => propext (or_iff_left fun ⟨d, _, hd, _⟩ => by rw [hi] at hd; cases hd)
    rw [hsame]
    exact h'
  cases i with
  | update id label condition action priority defaults => exact h.registers rfl
  | make d => exact hquiet rfl (h.make d)
  | work w => exact hquiet rfl (h.worked w)
  | move mv =>
    cases mv with
    | register d => exact h.registers rfl
    | deregister id => exact hquiet rfl (h.deregister id)
    | observe node id =>
      have hp := r.observe_rules node id
      exact hquiet rfl (h.congr hp.1 hp.2)
    | attach node a key => exact hquiet rfl (h.congr rfl rfl)
    | detach node key => exact hquiet rfl (h.congr rfl rfl)
    | write node a name value => exact hquiet rfl (h.congr rfl rfl)

theorem foldl_after (host : Option (Graph Unit)) (is : List Incident) :
    Enrols (is.foldl Registry.after { host }) (is.foldl Roster.after ∅)
      (Registry.Installed { host } is) := by
  induction is using List.reverseRecOn with
  | nil =>
    have hnone : Registry.Installed { host } [] = fun _ => False :=
      funext fun n => eq_false (installed_nil _ n)
    exact hnone ▸ blank host
  | append_singleton is i ih =>
    have hsome : Registry.Installed { host } (is ++ [i])
        = fun n => Registry.Installed { host } is n ∨ (is.foldl Registry.after { host }).Installs i n :=
      funext fun n => propext (installed_concat _ is i n)
    rw [hsome, List.foldl_concat, List.foldl_concat]
    exact ih.after i

end Enrols

/-! ## What can be seen -/

theorem listedBefore_iff (i j : Instance) : listedBefore i j = true ↔
    i.definition.priority < j.definition.priority ∨
      i.definition.priority = j.definition.priority ∧ i.id ≤ j.id := by
  simp only [listedBefore, Bool.or_eq_true, Bool.and_eq_true, decide_eq_true_eq, beq_iff_eq,
    Int32.lt_iff_toInt_lt, Int32.toInt_inj]

theorem listedBefore_trans (i j k : Instance) (h : listedBefore i j = true)
    (h' : listedBefore j k = true) : listedBefore i k = true := by
  rw [listedBefore_iff] at *
  rcases h with h | ⟨he, h⟩ <;> rcases h' with h' | ⟨he', h'⟩
  · exact .inl (Int32.lt_trans h h')
  · exact .inl (he' ▸ h)
  · exact .inl (he ▸ h')
  · exact .inr ⟨he.trans he', String.le_trans h h'⟩

theorem listedBefore_total (i j : Instance) : (listedBefore i j || listedBefore j i) = true := by
  rw [Bool.or_eq_true, listedBefore_iff, listedBefore_iff]
  by_cases hp : i.definition.priority = j.definition.priority
  · exact (String.le_total _ _).imp (fun hid => .inr ⟨hp, hid⟩) fun hid => .inr ⟨hp.symm, hid⟩
  · exact (Int32.lt_or_lt_of_ne hp).imp .inl .inl

/-- What a registry shows of the rules on a roster. -/
structure Shows (r : Registry) (m : Roster) : Prop where
  find : ∀ id, (r.find? id).map (·.definition) = m.lookup id
  contains : ∀ id, r.contains id = true ↔ id ∈ m
  size : r.size = m.keys.card
  /-- Each rule in force is listed once. -/
  listed : ∀ i, i ∈ r.list ↔ ∃ id, r.find? id = some i
  length : r.list.length = r.size
  sorted : (r.list.map (·.definition)).Pairwise Definition.Precedes

namespace Enrols

variable {r : Registry} {m : Roster} {was : Nat → Prop}

/-- The entries of a registry, followed to their instances, are of the same ids. -/
theorem ids_filterMap (h : Enrols r m was) :
    (r.registered.filterMap fun p => r.instances[p.2]?).map (·.definition.id)
      = r.registered.map (·.1) := by
  have hall : ∀ ps : List (String × Nat),
      (∀ p ∈ ps, ∃ i, r.instances[p.2]? = some i ∧ i.id = p.1) →
      (ps.filterMap fun p => r.instances[p.2]?).map (·.definition.id) = ps.map (·.1) := by
    intro ps hps
    induction ps with
    | nil => rfl
    | cons p rest ih =>
      obtain ⟨i, hi, hid⟩ := hps p List.mem_cons_self
      have hrest := ih fun q hq => hps q (List.mem_cons_of_mem _ hq)
      simp only [List.filterMap_cons, hi, List.map_cons, hrest]
      exact congrArg (· :: _) hid
  refine hall _ fun p hp => ?_
  obtain ⟨i, hi, hid, -⟩ := h.current p hp
  exact ⟨i, hi, hid⟩

theorem find?_iff (h : Enrols r m was) {id : String} {i : Instance} :
    r.find? id = some i ↔ ∃ n, (id, n) ∈ r.registered ∧ r.instances[n]? = some i := by
  unfold find?
  rw [Option.bind_eq_some_iff]
  exact exists_congr fun n => and_congr_left fun _ => number?_iff h.distinct

theorem retired_iff (h : Enrols r m was) (n : Nat) (i : Instance) (hi : r.instances[n]? = some i) :
    i.retired = true ↔ was n ∧ ∀ id, r.number? id ≠ some n := by
  rw [h.retired n i hi]
  refine and_congr_right fun _ => ⟨fun ho id hid => ?_, fun ho p hp hk => ?_⟩
  · exact ho _ ((number?_iff h.distinct).mp hid) rfl
  · exact ho p.1 ((number?_iff h.distinct).mpr (hk ▸ hp))

/-- **No rule is listed twice, since only one is in force for an id.** -/
theorem sorted (h : Enrols r m was) :
    (r.list.map (·.definition)).Pairwise Definition.Precedes := by
  have hids : (r.list.map (·.definition.id)).Nodup := by
    have hperm := (List.mergeSort_perm (r.registered.filterMap fun p => r.instances[p.2]?)
      listedBefore).map (·.definition.id)
    rw [h.ids_filterMap] at hperm
    exact hperm.nodup_iff.mpr h.distinct
  rw [List.Nodup, List.pairwise_map] at hids
  rw [List.pairwise_map]
  refine (List.pairwise_mergeSort listedBefore_trans listedBefore_total _).imp₂ ?_ hids
  intro i j hij hne
  exact ((listedBefore_iff i j).mp hij).imp_right fun ⟨hp, hid⟩ =>
    ⟨hp, String.not_le.mp fun hid' => hne (String.le_antisymm hid hid')⟩

theorem shows (h : Enrols r m was) : r.Shows m where
  find := by
    intro id
    cases hf : r.find? id with
    | some i =>
      obtain ⟨n, hn, hi⟩ := h.find?_iff.mp hf
      obtain ⟨j, hj, -, hm⟩ := h.current _ hn
      obtain rfl : i = j := Option.some.inj (hi.symm.trans hj)
      exact hm.symm
    | none =>
      have hout : id ∉ m := by
        intro hid
        obtain ⟨p, hp, rfl⟩ := contains_iff.mp (h.known id hid)
        obtain ⟨i, hi, -⟩ := h.current p hp
        rw [h.find?_iff.mpr ⟨p.2, hp, hi⟩] at hf
        cases hf
      exact (Finmap.lookup_eq_none.mpr hout).symm
  contains := by
    refine fun id => ⟨fun hc => ?_, h.known id⟩
    obtain ⟨p, hp, rfl⟩ := contains_iff.mp hc
    obtain ⟨i, -, -, hm⟩ := h.current p hp
    exact Finmap.mem_of_lookup_eq_some hm
  size := by
    have hkeys : m.keys = (r.registered.map (·.1)).toFinset := by
      ext id
      rw [Finmap.mem_keys, List.mem_toFinset, List.mem_map]
      refine ⟨fun hid => contains_iff.mp (h.known id hid), ?_⟩
      rintro ⟨p, hp, rfl⟩
      obtain ⟨i, -, -, hm⟩ := h.current p hp
      exact Finmap.mem_of_lookup_eq_some hm
    rw [hkeys, List.toFinset_card_of_nodup h.distinct, List.length_map]
    rfl
  listed := by
    intro i
    rw [list, List.mem_mergeSort, List.mem_filterMap]
    constructor
    · rintro ⟨p, hp, hi⟩
      exact ⟨p.1, h.find?_iff.mpr ⟨p.2, hp, hi⟩⟩
    · rintro ⟨id, hf⟩
      obtain ⟨n, hn, hi⟩ := h.find?_iff.mp hf
      exact ⟨(id, n), hn, hi⟩
  length := by
    have hlen := congrArg List.length h.ids_filterMap
    rw [List.length_map, List.length_map] at hlen
    exact (List.length_mergeSort _).trans hlen
  sorted := h.sorted

end Enrols

/-- **The listing is told by the roster**, not by how the rules came to be on it. -/
theorem Shows.list_eq {r s : Registry} {m : Roster} (hr : r.Shows m) (hs : s.Shows m) :
    r.list.map (·.definition) = s.list.map (·.definition) := by
  have hmem : ∀ {q : Registry}, q.Shows m → ∀ d, d ∈ q.list.map (·.definition) ↔
      ∃ id, m.lookup id = some d := by
    intro q hq d
    rw [List.mem_map]
    constructor
    · rintro ⟨i, hi, rfl⟩
      obtain ⟨id, hf⟩ := (hq.listed i).mp hi
      exact ⟨id, by rw [← hq.find, hf]; rfl⟩
    · rintro ⟨id, hm⟩
      rw [← hq.find] at hm
      obtain ⟨i, hf, rfl⟩ := Option.map_eq_some_iff.mp hm
      exact ⟨i, (hq.listed i).mpr ⟨id, hf⟩, rfl⟩
  have hnodup : ∀ {q : Registry}, q.Shows m → (q.list.map (·.definition)).Nodup := by
    intro q hq
    refine hq.sorted.imp fun {d e} h => ?_
    rintro rfl
    exact h.asymm h
  refine List.Perm.eq_of_pairwise (fun d e _ _ h h' => absurd h' h.asymm) hr.sorted hs.sorted ?_
  exact (List.perm_ext_iff_of_nodup (hnodup hr) (hnodup hs)).mpr fun d =>
    (hmem hr d).trans (hmem hs d).symm

/-- A definition that is accepted has a new instance in force, and retires the one it replaces; one
that is refused changes nothing. -/
structure Takes (r : Registry) (d : Definition) : Prop where
  answer : (∃ placed, (r.register d).2 = .ok placed) ↔ d.check = .ok ()
  refused : ∀ e, (r.register d).2 = .error e → (r.register d).1 = r
  accepted : ∀ placed, (r.register d).2 = .ok placed →
    placed = ⟨r.instances.length, r.number? d.id⟩ ∧
      ∃ i, (r.register d).1.find? d.id = some i ∧ i.Untouched d
  others : ∀ placed, (r.register d).2 = .ok placed → ∀ n i, r.instances[n]? = some i →
    (r.register d).1.instances[n]?
      = some (if placed.replaced = some n then i.mapRule Rule.retire else i)

theorem Enrols.takes {r : Registry} {m : Roster} {was : Nat → Prop} (h : Enrols r m was)
    (d : Definition) : r.Takes d := by
  cases hd : d.check with
  | error e =>
    have hreg := r.register_refused hd
    refine ⟨?_, fun e' _ => by rw [hreg], fun placed hp => ?_, fun placed hp => ?_⟩
    · simp [hreg, hd]
    · rw [hreg] at hp
      cases hp
    · rw [hreg] at hp
      cases hp
  | ok u =>
    obtain ⟨hans, hreg, hinst⟩ := register_accepted hd fun old ho => h.number_lt ho
    have hlen := r.instances_vacate_length d.id
    refine ⟨⟨fun _ => hd, fun _ => ⟨_, hans⟩⟩, fun e he => ?_, fun placed hp => ?_,
      fun placed hp n i hi => ?_⟩
    · rw [hans] at he
      cases he
    · obtain rfl : _ = placed := Except.ok.inj (hans.symm.trans hp)
      refine ⟨rfl, .ofDefinition d, ?_, Instance.untouched_ofDefinition d⟩
      refine (h.register hd).find?_iff.mpr ⟨r.instances.length, ?_, ?_⟩
      · rw [hreg, Registry.install, hlen]
        exact List.mem_append_right _ List.mem_cons_self
      · rw [hinst, Registry.install, ← hlen]
        exact List.getElem?_concat_length
    · obtain rfl : _ = placed := Except.ok.inj (hans.symm.trans hp)
      have hn : n < (r.vacate d.id).instances.length := hlen ▸ (List.getElem?_eq_some_iff.mp hi).1
      rw [hinst, Registry.install, List.getElem?_append_left hn, getElem?_vacate, hi]
      split <;> rfl

/-- **Whatever happens to a registry, it shows the definitions that were accepted last: by id, in
number, and in its listing, which is in strict order. An instance is retired exactly if it has been put
in force and is not any more; a new one starts with nothing, whatever had become of the one before.** -/
theorem registry_refines_map (host : Option (Graph Unit)) (is : List Incident) :
    (is.foldl after { host }).Shows (is.foldl Roster.after ∅) ∧
      (∀ d, (is.foldl after { host }).Takes d) ∧
      (∀ n i, (is.foldl after { host }).instances[n]? = some i →
        (i.retired = true ↔ Installed { host } is n ∧
          ∀ id, (is.foldl after { host }).number? id ≠ some n)) ∧
      ∀ host' (js : List Incident), js.foldl Roster.after ∅ = is.foldl Roster.after ∅ →
        (js.foldl after { host := host' }).list.map (·.definition)
          = (is.foldl after { host }).list.map (·.definition) := by
  have h := Enrols.foldl_after host is
  exact ⟨h.shows, h.takes, h.retired_iff, fun host' js hjs =>
    Shows.list_eq (hjs ▸ (Enrols.foldl_after host' js).shows) h.shows⟩

end Registry
end ReactiveRules
