import ReactiveRules.Proofs.Engine.Deferral
import ReactiveRules.Proofs.Engine.Wakes

/-!
# `Proofs/Engine/Writes.lean` — what goes on on behalf of a write

A write notifies its observers one after another: it takes a turn to begin the run of the next, and
waits until the run has answered. **At any time at most one run or turn goes on on its behalf**
(`Engine.Reachable.calls_le`); when it returns or is given up, none does. A rule that a write is not on
its way to any more is never notified of it again (`Engine.Reachable.bears_before`).
-/

set_option autoImplicit false

namespace ReactiveRules

/-- What a write tells a rule. -/
def GraphWrite.trigger (x : GraphWrite) (rule : String) : Trigger :=
  ⟨rule, x.node, x.name, x.value, x.aspect⟩

/-- Whatever is in force for an id is an instance of that id. -/
def Core.Named (C : Core) : Prop := ∀ p ∈ C.registered, (C.ruleAt p.2).id = p.1

theorem Core.Named.step {C C' : Core} (h : C.Named) (hv : C.Valid) (hs : C.Step C') : C'.Named := by
  intro p hp
  have hold : p ∈ C.registered → (C'.ruleAt p.2).id = p.1 := by
    intro hp
    have hdef := ((hs.follows hv).rule p.2 (hv.registered p hp)).definition
    exact (congrArg Definition.id hdef).trans (h p hp)
  cases hs with
  | change hc =>
    rcases hc.registered hp with hp | ⟨-, -, hid⟩
    · exact hold hp
    · exact hid
  | forgets => exact hold hp
  | pass ht ha => exact hold hp

theorem Core.Named.id_of_number {C : Core} (h : C.Named) {id : String} {n : Nat}
    (hn : C.number? id = some n) : (C.ruleAt n).id = id := by
  obtain ⟨p, hf, rfl⟩ := Option.map_eq_some_iff.mp hn
  rw [h p (List.mem_of_find?_eq_some hf)]
  simpa using List.find?_some hf

theorem Engine.Reachable.named {E : Engine} (hE : E.Reachable) : E.core.Named := by
  refine hE.induction (fun E₀ hf => ?_) fun _ _ hv h hs => h.step hv hs
  obtain ⟨_, _, _, _, _, _, rfl⟩ := hf
  exact fun p hp => absurd hp List.not_mem_nil

/-- A write later on: it tells the same, and there are no more observers to notify. -/
structure GraphWrite.Follows (x y : GraphWrite) : Prop where
  trigger : y.trigger = x.trigger
  remaining : y.remaining ⊆ x.remaining

theorem GraphWrite.Follows.refl (x : GraphWrite) : x.Follows x := ⟨rfl, List.Subset.refl _⟩

namespace Engine

variable {E E' : Engine}

def writeAt (E : Engine) (k : Nat) : GraphWrite := E.writes.getD k default

/-! ## Steps -/

/-- The run by which a write notifies an instance. -/
def notification (x : GraphWrite) (k : Nat) (rule : String) (n : Nat) : Run :=
  { rule := n, trigger := x.trigger rule, admission := .dropIfBusy, client := .write k }

/-- What a step can do to the writes. -/
inductive Writes (E E' : Engine) : Prop
  | spares (h : E.Spares E')
  /-- A write turns to the next observer, and notifies its instance if there is one. -/
  | turnsTo {k : Nat} {x : GraphWrite} {rule : String} {rest : List String}
    (hx : E.writes[k]? = some x) (hr : x.remaining = rule :: rest)
    (hw : E'.writes = E.writes.set k { x with remaining := rest })
    (hruns : E'.runs = E.runs ∨
      ∃ n, E.core.number? rule = some n ∧ E'.runs = E.runs ++ [notification x k rule n])
    (hc : ∀ m, E'.calls m ≤ E.calls m)
  | begins {x : GraphWrite} (hw : E'.writes = E.writes ++ [x]) (hruns : E'.runs = E.runs)
    (hc : ∀ m, E'.calls m ≤ E.calls m + if E.writes.length = m then 1 else 0)
  | givenUp {k : Nat} (hw : E'.writes = E.writes.modify k fun x => { x with remaining := [] })
    (hruns : ∀ r m, (E'.runAt r).client = .write m → (E.runAt r).client = .write m)
    (hc : ∀ m, E'.calls m ≤ E.calls m)

/-! ### What goes on -/

theorem calls_wake (E : Engine) (j : Job) (m : Nat) :
    (E.wake j).calls m ≤ E.calls m + if j = .write m then 1 else 0 := by
  have hruns : (E.wake j).runs = E.runs := congrArg Core.runs (core_wake E j)
  rw [calls, calls, hruns, Nat.add_assoc]
  exact Nat.add_le_add_left (count_wake E j _) _

theorem calls_goOn (E : Engine) (j : Job) (m : Nat) :
    (E.goOn j).calls m ≤ E.calls m + if j = .write m then 1 else 0 := by
  rw [calls, calls, Nat.add_assoc]
  exact Nat.add_le_add_left (count_goOn E j _) _

theorem calls_spawn (E : Engine) (n : Nat) (t : Trigger) (a : Admission) (c : Client) (m : Nat) :
    (E.spawn n t a c).1.calls m = E.calls m + if c = .write m then 1 else 0 := by
  simp only [calls, spawn, List.countP_append, List.countP_singleton, isOpen, Bool.not_false,
    Bool.and_true, beq_iff_eq]
  omega

theorem spares_erase (E : Engine) (j : Job) : E.Spares { E with ready := E.ready.erase j } :=
  spares_of_jobs rfl rfl fun _ => List.Sublist.count_le _ List.erase_sublist

/-- A write that takes its turn has one turn less to take. -/
theorem calls_erase {k : Nat} (h : Job.write k ∈ E.ready) :
    ({ E with ready := E.ready.erase (.write k) } : Engine).calls k + 1 = E.calls k := by
  have hpos : 0 < E.ready.count (.write k) := List.count_pos_iff.mpr h
  have hless : (E.ready.erase (.write k)).count (.write k) = E.ready.count (.write k) - 1 :=
    List.count_erase_self
  unfold calls
  dsimp only
  rw [hless]
  omega

/-- In its turn a write can begin one thing. -/
theorem calls_le_of_turn {k m : Nat} (h : Job.write k ∈ E.ready) (h' : E'.calls m
    ≤ ({ E with ready := E.ready.erase (.write k) } : Engine).calls m + if k = m then 1 else 0) :
    E'.calls m ≤ E.calls m := by
  by_cases hm : k = m
  · subst hm
    rwa [if_pos rfl, calls_erase h] at h'
  · rw [if_neg hm] at h'
    exact Nat.le_trans h' ((E.spares_erase (.write k)).calls m)

/-! ### What a step is to the writes -/

/-- The turn of a write: it returns, or turns to the next observer. -/
theorem writes_performWrite {k : Nat} (h : Job.write k ∈ E.ready) :
    E.Writes ({ E with ready := E.ready.erase (.write k) }.performWrite k) := by
  have hs := E.spares_erase (.write k)
  unfold performWrite
  split
  · exact .spares hs
  · next x hx =>
    split
    · exact .spares (hs.trans (wakes_finishTask _ _ _).toSpares)
    · next rule rest hr =>
      dsimp only
      split
      · refine .turnsTo hx hr rfl (.inl rfl) fun m => calls_le_of_turn h ?_
        refine Nat.le_trans (calls_goOn _ _ m) ?_
        simp only [Job.write.injEq]
        exact Nat.le_refl _
      · next n hn =>
        refine .turnsTo hx hr rfl (.inr ⟨n, hn, rfl⟩) fun m => calls_le_of_turn h ?_
        refine Nat.le_trans ((wakes_goOn _ rfl).calls m) (Nat.le_of_eq ?_)
        refine (calls_spawn _ _ _ _ (.write k) m).trans ?_
        simp only [Client.write.injEq]
        rfl

theorem spares_turn (E : Engine) {j : Job} (hj : j.isWrite = false) (second : Bool) :
    E.Spares (E.turn j second) := by
  unfold Engine.turn
  split
  · exact (E.spares_erase j).trans (wakes_perform _ hj second).toSpares
  · exact (Wakes.refl E).toSpares

theorem writes_turn (E : Engine) (j : Job) (second : Bool) : E.Writes (E.turn j second) := by
  cases hw : j.isWrite with
  | false => exact .spares (E.spares_turn hw second)
  | true =>
    cases j with
    | write k =>
      unfold Engine.turn
      split
      · next hj => exact writes_performWrite (List.contains_iff_mem.mp hj)
      · exact .spares (Wakes.refl E).toSpares
    | _ => cases hw

/-- A write that has been made takes its first turn. -/
theorem writes_begin {E₁ : Engine} {x : GraphWrite} (hr : E₁.runs = E.runs) (hj : E₁.ready = E.ready)
    (hw : E₁.writes = E.writes ++ [x]) : E.Writes (E₁.wake (.write E.writes.length)) := by
  refine .begins (x := x) ((writes_wake E₁ _).trans hw) ?_ fun m => ?_
  · exact (congrArg Core.runs (core_wake E₁ _)).trans hr
  · have h := calls_wake E₁ (.write E.writes.length) m
    have hsame : E₁.calls m = E.calls m := by rw [calls, calls, hr, hj]
    simpa only [hsame, Job.write.injEq] using h

theorem writes_write (E : Engine) (a : Aspect) (node name : String) (value : Json) :
    E.Writes (E.write a node name value).1 := by
  unfold write
  dsimp only
  split
  · exact writes_begin rfl rfl rfl
  · exact writes_begin rfl rfl rfl

theorem writes_abandonWrite (E : Engine) (k : Nat) : E.Writes (E.abandonWrite k) := by
  have ha := wakes_abandonRunOf ({ E with
    writes := E.writes.modify k fun x => { x with remaining := [] }
    ready := E.ready.erase (.write k) } : Engine) (.write k)
  exact .givenUp ha.writes ha.client fun m =>
    Nat.le_trans (ha.calls m) ((E.spares_erase (.write k)).calls m)

theorem writes_serve (E : Engine) (q : Request) : E.Writes (E.serve q) := by
  cases hq : q.isWrite with
  | false => exact .spares (E.wakes_serve hq).toSpares
  | true =>
    cases q with
    | write a node name value => exact E.writes_write a node name value
    | abandonWrite k => exact E.writes_abandonWrite k
    | _ => cases hq

theorem Step.writes (h : Step E E') : E.Writes E' := by
  cases h with
  | turn j second => exact E.writes_turn j second
  | strike ht => exact .spares (E.wakes_strike _).toSpares
  | pass ht => exact .spares (spares_of_jobs rfl rfl fun _ => Nat.le_refl _)
  | @request q hq => exact E.writes_serve q

/-! ## One thing at a time -/

/-- On behalf of a write at most one thing goes on, and nothing before it has been made. -/
def Single (E : Engine) : Prop := ∀ k, E.calls k ≤ if k < E.writes.length then 1 else 0

theorem Single.step (h : E.Single) (hw : E.Writes E') : E'.Single := by
  intro k
  have hk := h k
  cases hw with
  | spares hs =>
    rw [hs.writes]
    exact Nat.le_trans (hs.calls k) hk
  | turnsTo hx hr hw hruns hc =>
    rw [hw, List.length_set]
    exact Nat.le_trans (hc k) hk
  | begins hw hruns hc =>
    have hck := hc k
    rw [hw, List.length_append, List.length_singleton]
    split at hk <;> split at hck <;> split <;> omega
  | givenUp hw hruns hc =>
    rw [hw, List.length_modify]
    exact Nat.le_trans (hc k) hk

theorem Reachable.single (hE : E.Reachable) : E.Single := by
  obtain ⟨E₀, hf, hst⟩ := hE
  induction hst with
  | refl =>
    obtain ⟨_, _, _, _, _, _, rfl⟩ := hf
    exact fun k => Nat.zero_le _
  | tail _ hs ih => exact ih.step hs.writes

theorem Reachable.calls_le (hE : E.Reachable) (k : Nat) : E.calls k ≤ 1 := by
  have h := hE.single k
  split at h
  · exact h
  · exact Nat.le_trans h (Nat.zero_le 1)

theorem lt_of_client {r k : Nat} (hc : (E.runAt r).client = .write k) : r < E.runs.length := by
  by_contra hlt
  rw [runAt, List.getD_eq_getElem?_getD, List.getElem?_eq_none (Nat.le_of_not_lt hlt)] at hc
  cases hc

theorem lt_of_isOpen {r k : Nat} (h : isOpen k (E.runAt r) = true) : r < E.runs.length := by
  simp only [isOpen, Bool.and_eq_true, beq_iff_eq] at h
  exact lt_of_client h.1

/-- Two runs that a write has not heard of are the same. -/
theorem Reachable.open_unique (hE : E.Reachable) {k r m : Nat} (hr : isOpen k (E.runAt r) = true)
    (hm : isOpen k (E.runAt m) = true) : r = m := by
  have hle : E.runs.countP (isOpen k) ≤ 1 := Nat.le_trans (Nat.le_add_right _ _) (hE.calls_le k)
  by_contra hne
  rcases Nat.lt_or_gt_of_ne hne with h | h
  · have htwo := Core.countP_two default h (lt_of_isOpen hm) hr hm
    omega
  · have htwo := Core.countP_two default h (lt_of_isOpen hr) hm hr
    omega

/-- A write that is to take a turn has heard of all its runs. -/
theorem Reachable.heard_of_ready (hE : E.Reachable) {k r : Nat} (hj : Job.write k ∈ E.ready) :
    isOpen k (E.runAt r) = false := by
  by_contra hopen
  have hopen : isOpen k (E.runAt r) = true := by simpa using hopen
  have hr := lt_of_isOpen hopen
  have hx : E.runAt r = E.runs[r] := by simp [runAt, hr]
  have hruns : 0 < E.runs.countP (isOpen k) :=
    List.countP_pos_iff.mpr ⟨_, List.getElem_mem hr, hx ▸ hopen⟩
  have hready : 0 < E.ready.count (.write k) := List.count_pos_iff.mpr hj
  have hle : E.runs.countP (isOpen k) + E.ready.count (.write k) ≤ 1 := hE.calls_le k
  omega

/-! ## What the runs of a write tell -/

theorem writeAt_of_getElem? {k : Nat} {x : GraphWrite} (h : E.writes[k]? = some x) :
    k < E.writes.length ∧ E.writeAt k = x := by
  obtain ⟨hk, rfl⟩ := List.getElem?_eq_some_iff.mp h
  exact ⟨hk, by simp [writeAt, hk]⟩

theorem Writes.follows (h : E.Writes E') {k : Nat} (hk : k < E.writes.length) :
    k < E'.writes.length ∧ (E.writeAt k).Follows (E'.writeAt k) := by
  cases h with
  | spares hs =>
    rw [writeAt, writeAt, hs.writes]
    exact ⟨hk, .refl _⟩
  | @turnsTo m x rule rest hx hr hw hruns hc =>
    obtain ⟨hm, rfl⟩ := writeAt_of_getElem? hx
    rw [writeAt, writeAt, hw, List.length_set, Core.getD_set _ _ hm]
    refine ⟨hk, ?_⟩
    split
    · next h =>
      subst h
      exact ⟨rfl, by rw [← writeAt, hr]; exact List.subset_cons_self _ _⟩
    · exact .refl _
  | begins hw hruns hc =>
    rw [writeAt, writeAt, hw, List.length_append, Core.getD_append _ hk]
    exact ⟨Nat.lt_add_right _ hk, .refl _⟩
  | @givenUp m hw hruns hc =>
    rw [writeAt, writeAt, hw, List.length_modify]
    refine ⟨hk, ?_⟩
    rcases Core.getD_modify_or E.writes m (fun x => { x with remaining := [] }) default k with
      h | ⟨-, h⟩ <;> rw [h]
    · exact .refl _
    · exact ⟨rfl, List.nil_subset _⟩

/-- Whatever a run of a write tells is what was written. -/
def Faithful (E : Engine) : Prop := ∀ r k, (E.runAt r).client = .write k →
  k < E.writes.length ∧ (E.runAt r).trigger = (E.writeAt k).trigger (E.runAt r).trigger.rule

/-- Where a run of a write comes from: it was there, or the write has just turned to its observer. -/
theorem Writes.run (h : E.Writes E') {r k : Nat} (hc : (E'.runAt r).client = .write k)
    (hkeep : r < E.runs.length → (E'.runAt r).client = (E.runAt r).client) :
    (E.runAt r).client = .write k ∨
      k < E.writes.length ∧ ∃ rule n, rule ∈ (E.writeAt k).remaining ∧
        E.core.number? rule = some n ∧ E'.runAt r = notification (E.writeAt k) k rule n := by
  by_cases hr : r < E.runs.length
  · exact .inl (hkeep hr ▸ hc)
  · have hlt := lt_of_client hc
    cases h with
    | spares hs => exact .inl (hs.client r k hc)
    | @turnsTo m x rule rest hx hrem hw hruns hcalls =>
      obtain ⟨hm, rfl⟩ := writeAt_of_getElem? hx
      rcases hruns with hruns | ⟨n, hn, hruns⟩
      · rw [hruns] at hlt
        exact absurd hlt hr
      · rcases Core.getD_concat_or E.runs (notification (E.writeAt m) m rule n) default r with
          hsame | ⟨-, hnew⟩
        · rw [runAt, hruns, hsame] at hc
          exact absurd (lt_of_client hc) hr
        · have hrun : E'.runAt r = notification (E.writeAt m) m rule n := by rw [runAt, hruns, hnew]
          rw [hrun] at hc
          cases hc
          exact .inr ⟨hm, rule, n, hrem ▸ List.mem_cons_self, hn, hrun⟩
    | begins hw hruns hcalls =>
      rw [hruns] at hlt
      exact absurd hlt hr
    | givenUp hw hruns hcalls => exact .inl (hruns r k hc)

theorem Faithful.step (h : E.Faithful) (hv : E.core.Valid) (hs : Step E E') : E'.Faithful := by
  intro r k hc
  have hf := (hs.core hv).follows hv
  have hw := hs.writes
  rcases hw.run hc fun hr => (hf.run r hr).client with hold | ⟨hk, rule, n, -, -, hnew⟩
  · obtain ⟨hk, ht⟩ := h r k hold
    obtain ⟨hk', hx⟩ := hw.follows hk
    have htrig : (E'.runAt r).trigger = (E.runAt r).trigger := (hf.run r (lt_of_client hold)).trigger
    rw [htrig, hx.trigger]
    exact ⟨hk', ht⟩
  · obtain ⟨hk', hx⟩ := hw.follows hk
    rw [hnew, hx.trigger]
    exact ⟨hk', rfl⟩

/-- **A run of a write tells what was written.** -/
theorem Reachable.faithful (hE : E.Reachable) : E.Faithful := by
  obtain ⟨E₀, hf, hst⟩ := hE
  induction hst with
  | refl =>
    obtain ⟨_, _, _, _, _, _, rfl⟩ := hf
    exact fun r k hc => nomatch hc
  | tail h₁ hs ih => exact ih.step (Reachable.valid ⟨E₀, hf, h₁⟩) hs

/-! ## To whom a write is on its way -/

/-- The write is on its way to the rule: the rule is still to be notified, or the run of an instance of
it has not been looked at. -/
def Bears (E : Engine) (k : Nat) (rule : String) : Prop :=
  rule ∈ (E.writeAt k).remaining ∨
    ∃ r, (E.runAt r).client = .write k ∧ (E.ruleOf r).id = rule ∧ (E.runAt r).stage = .arriving

/-- An instance keeps its id. -/
theorem Reachable.id_ruleOf (hE : E.Reachable) (hs : Step E E') {r : Nat} (hr : r < E.runs.length) :
    (E'.ruleOf r).id = (E.ruleOf r).id := by
  have hf := (hs.core hE.valid).follows hE.valid
  have hrule : (E'.core.runAt r).rule = (E.core.runAt r).rule := (hf.run r hr).rule
  have hdef := (hf.rule _ (hE.valid.run r hr)).definition
  show (E'.core.ruleAt (E'.core.runAt r).rule).definition.id
    = (E.core.ruleAt (E.core.runAt r).rule).definition.id
  rw [hrule, hdef]

/-- **A write comes to be on its way to nobody after it has been made.** -/
theorem Reachable.bears_before (hE : E.Reachable) (hs : Step E E') {k : Nat} {rule : String}
    (hk : k < E.writes.length) (h : E'.Bears k rule) : E.Bears k rule := by
  have hc := hs.core hE.valid
  have hf := hc.follows hE.valid
  rcases h with hmem | ⟨r, hclient, hrule, harr⟩
  · exact .inl ((hs.writes.follows hk).2.remaining hmem)
  · rcases hs.writes.run hclient fun hr => (hf.run r hr).client with
      hold | ⟨-, rule', n, hmem, hn, hnew⟩
    · have hr := lt_of_client hold
      rw [hE.id_ruleOf hs hr] at hrule
      have hsame : E'.runAt r = E.runAt r := hc.run_of_arriving hr harr
      rw [hsame] at harr
      exact .inr ⟨r, hold, hrule, harr⟩
    · -- the write has just turned to the rule, so the rule was to be notified
      have hid : (E'.ruleOf r).id = rule' := by
        have hlt := hE.valid.number_lt hn
        show (E'.core.ruleAt (E'.runAt r).rule).definition.id = rule'
        rw [hnew, show (notification (E.writeAt k) k rule' n).rule = n from rfl,
          (hf.rule n hlt).definition]
        exact hE.named.id_of_number hn
      rw [hid] at hrule
      exact .inl (hrule ▸ hmem)

theorem Steps.not_bears {E₁ : Engine} (h : Steps E E₁) (hE : E.Reachable) {k : Nat} {rule : String}
    (hk : k < E.writes.length) (hn : ¬ E.Bears k rule) :
    k < E₁.writes.length ∧ ¬ E₁.Bears k rule := by
  induction h with
  | refl => exact ⟨hk, hn⟩
  | tail h₁ hs ih =>
    exact ⟨(hs.writes.follows ih.1).1, fun hb => ih.2 ((hE.steps h₁).bears_before hs ih.1 hb)⟩

/-! ### Ends -/

/-- The call that made the write returns: its task is finished. -/
def Returns (E E' : Engine) (k : Nat) : Prop :=
  (∃ second, E' = E.turn (.write k) second) ∧
    E'.finished = E.finished ++ [((E.writeAt k).task, .written)]

/-- The call that made the write returns or is given up. -/
def Ends (E E' : Engine) (k : Nat) : Prop := E.Returns E' k ∨ E' = E.serve (.abandonWrite k)

theorem Reachable.isOpen_of_arriving (hE : E.Reachable) {k r : Nat}
    (hc : (E.runAt r).client = .write k) (ha : (E.runAt r).stage = .arriving) :
    isOpen k (E.runAt r) = true := by
  have hn : (E.runAt r).answered = false := (hE.unheard r ha).2
  simp [isOpen, hc, hn]

theorem finished_performWrite {k : Nat} {x : GraphWrite} (hx : E.writes[k]? = some x)
    (h : (E.performWrite k).finished ≠ E.finished) : x.remaining = [] := by
  unfold performWrite at h
  rw [hx] at h
  dsimp only at h
  split at h
  · next hr => exact hr
  · split at h
    · exact absurd rfl h
    · exact absurd rfl h

/-- A call returns in a turn of its write, if there is nobody left to notify. -/
theorem returns_iff {k : Nat} (hk : k < E.writes.length) : E.Returns E' k ↔
    (∃ second, E' = E.turn (.write k) second) ∧ Job.write k ∈ E.ready ∧
      (E.writeAt k).remaining = [] := by
  have hx : ({ E with ready := E.ready.erase (.write k) } : Engine).writes[k]?
      = some (E.writeAt k) := by simp [writeAt, hk]
  have hturn : ∀ second, Job.write k ∈ E.ready → E.turn (.write k) second
      = { E with ready := E.ready.erase (.write k) }.performWrite k :=
    fun _ hj => if_pos (List.contains_iff_mem.mpr hj)
  constructor
  · rintro ⟨⟨second, rfl⟩, hfin⟩
    have hj : Job.write k ∈ E.ready := by
      by_contra hj
      have hnone : E.turn (.write k) second = E := if_neg fun h => hj (List.contains_iff_mem.mp h)
      rw [hnone] at hfin
      simp at hfin
    refine ⟨⟨second, rfl⟩, hj, finished_performWrite hx fun hsame => ?_⟩
    rw [hturn second hj, hsame] at hfin
    simp at hfin
  · rintro ⟨⟨second, rfl⟩, hj, hrem⟩
    refine ⟨⟨second, rfl⟩, ?_⟩
    rw [hturn second hj]
    unfold performWrite
    rw [hx]
    dsimp only
    rw [hrem]
    rfl

/-- Once a write has been given up, no run of its arrives. -/
theorem Reachable.not_arriving_abandonWrite (hE : E.Reachable) {k r : Nat}
    (hc : (E.runAt r).client = .write k) (ha : (E.runAt r).stage = .arriving) :
    ((E.abandonWrite k).runAt r).stage ≠ .arriving := by
  have hopen := hE.isOpen_of_arriving hc ha
  have hr := lt_of_client hc
  have hsusp : isSuspended (E.runAt r) (.write k) = true := by
    simp only [isOpen, Bool.and_eq_true] at hopen
    simp [isSuspended, hopen.1, hopen.2, ha]
  generalize hE₁ : ({ E with
    writes := E.writes.modify k fun x => { x with remaining := [] }
    ready := E.ready.erase (.write k) } : Engine) = E₁
  have hruns : E₁.runs = E.runs := by rw [← hE₁]
  have hv : E₁.core.Valid := by
    rw [← hE₁]
    exact hE.valid
  have hrunAt : ∀ m, E₁.runAt m = E.runAt m := fun m => by rw [runAt, runAt, hruns]
  have hgive : E.abandonWrite k = E₁.abandonRunOf (.write k) := by rw [← hE₁]; rfl
  rw [hgive]
  cases hf : E₁.runs.findIdx? (isSuspended · (.write k)) with
  | none =>
    -- the run itself would have been found
    rw [List.findIdx?_eq_none_iff] at hf
    have hmem : E.runAt r ∈ E₁.runs := by
      rw [hruns]
      simp [runAt, hr]
    exact absurd (hsusp.symm.trans (hf _ hmem)) Bool.noConfusion
  | some m =>
    obtain ⟨hm, hs, hcore⟩ := core_abandonRunOf hv hf
    have hmopen : isOpen k (E.runAt m) = true := by
      rw [hrunAt] at hs
      simp only [isSuspended, Bool.and_eq_true] at hs
      simp only [isOpen, Bool.and_eq_true]
      exact hs.1
    obtain rfl := hE.open_unique hopen hmopen
    have hx : (E₁.abandonRunOf (.write k)).runAt r = (E₁.core.scene r).abandon.run := by
      rw [← core_runAt, hcore, Core.runAt_put_self E₁.core (r := r) rfl hm]
    rw [hx]
    exact Stage.noConfusion

/-- **A write whose call is over is on its way to nobody.** -/
theorem Reachable.not_bears_of_ends (hE : E.Reachable) (hs : Step E E') {k : Nat}
    (hk : k < E.writes.length) (h : E.Ends E' k) (rule : String) : ¬ E'.Bears k rule := by
  rcases h with hret | rfl
  · intro hb
    obtain ⟨-, hj, hrem⟩ := (returns_iff hk).mp hret
    rcases hE.bears_before hs hk hb with hmem | ⟨r, hc, -, ha⟩
    · rw [hrem] at hmem
      cases hmem
    · exact absurd ((hE.isOpen_of_arriving hc ha).symm.trans (hE.heard_of_ready hj)) Bool.noConfusion
  · rintro (hmem | ⟨r, hc, -, ha⟩)
    · have hw : (E.abandonWrite k).writes = E.writes.modify k fun x => { x with remaining := [] } :=
        (wakes_abandonRunOf _ _).writes
      have hnone : ((E.abandonWrite k).writeAt k).remaining = [] := by
        rw [writeAt, hw, Core.getD_modify _ _ hk, if_pos rfl]
      have hmem : rule ∈ ((E.abandonWrite k).writeAt k).remaining := hmem
      rw [hnone] at hmem
      cases hmem
    · have hold : (E.runAt r).client = .write k := (wakes_abandonRunOf ({ E with
        writes := E.writes.modify k fun x => { x with remaining := [] }
        ready := E.ready.erase (.write k) } : Engine) (.write k)).client r k hc
      have hsame := (hs.core hE.valid).run_of_arriving (lt_of_client hold) ha
      have hbefore : (E.runAt r).stage = .arriving := (congrArg Run.stage hsame).symm.trans ha
      exact hE.not_arriving_abandonWrite hold hbefore ha

end Engine

end ReactiveRules
