import Mathlib.Tactic.IntervalCases
import ReactiveRules.Proofs.Engine.Memory
import ReactiveRules.Proofs.Engine.Writes

/-!
# `Proofs/Engine/Delivery.lean` — in which order a rule records what is written

A write notifies its observers one after another, and waits for each run that it sets off. While it
waits, another write can be made and overtake it. **So a rule records the values of two writes in the
order in which they were made, unless the first was still on its way to the rule when the second was
made** (`Engine.Trail.records_in_order`); a write whose call is over is on its way to nobody. What a
rule holds as its fact in the end is what it recorded last.
-/

set_option autoImplicit false

namespace ReactiveRules

namespace Engine

variable {E E' : Engine}

/-- The write `k` is made in the step. Of `x` only what is written counts. -/
def Begins (E E' : Engine) (k : Nat) (x : GraphWrite) : Prop :=
  k = E.writes.length ∧ E' = E.serve (.write x.aspect x.node x.name x.value)

/-- A run of the write `k` for an instance of the rule is admitted, so that its value is recorded. -/
def Records (E E' : Engine) (k : Nat) (rule : String) : Prop :=
  ∃ r, (E.runAt r).client = .write k ∧ (E.ruleOf r).id = rule ∧ E.Accepts E' r

theorem Begins.trigger {k : Nat} {x : GraphWrite} (h : E.Begins E' k x) :
    k < E'.writes.length ∧ (E'.writeAt k).trigger = x.trigger := by
  obtain ⟨rfl, rfl⟩ := h
  have hwrites : ∃ y : GraphWrite, (E.serve (.write x.aspect x.node x.name x.value)).writes
      = E.writes ++ [y] ∧ y.trigger = x.trigger := by
    simp only [serve, write]
    rw [writes_wake]
    exact ⟨_, rfl, rfl⟩
  obtain ⟨y, hw, hy⟩ := hwrites
  rw [writeAt, hw]
  simp [hy]

/-- A rule that records the value of a write is one that it was on its way to. -/
theorem Reachable.bears_of_records (hE : E.Reachable) (hs : Step E E') {k : Nat} {rule : String}
    (h : E.Records E' k rule) : k < E.writes.length ∧ E.Bears k rule := by
  obtain ⟨r, hc, hid, ha⟩ := h
  refine ⟨(hE.faithful r k hc).1, .inr ⟨r, hc, hid, ?_⟩⟩
  cases (hs.core hE.valid).recalls hE.valid hE.unheard with
  | @records m harr hacc hf =>
    obtain rfl := (hacc r).mp ha
    exact harr
  | keeps hacc hf => exact absurd ha (hacc r)

/-- The fact `f` that the instance `n` holds at `j` was recorded in the step `i`, when the notification
`r` was admitted, and is the last that was recorded under its name. -/
structure Stems (E : Nat → Engine) (j n : Nat) (f : FactRecord) (i r : Nat) : Prop where
  before : i < j
  rule : ((E i).runAt r).rule = n
  accepts : (E i).Accepts (E (i + 1)) r
  record : f = (E i).core.recordOf r
  latest : ∀ l m, i < l → l < j → (E l).Accepts (E (l + 1)) m → ((E l).runAt m).rule = n →
    ((E l).runAt m).trigger.name ≠ f.fact.name

theorem Stems.later {E : Nat → Engine} {j n i r : Nat} {f : FactRecord} (h : Stems E j n f i r)
    (hj : ∀ m, (E j).Accepts (E (j + 1)) m → ((E j).runAt m).rule = n →
      ((E j).runAt m).trigger.name ≠ f.fact.name) : Stems E (j + 1) n f i r := by
  refine ⟨Nat.lt_succ_of_lt h.before, h.rule, h.accepts, h.record, fun l m hil hlj ha hm => ?_⟩
  rcases Nat.lt_succ_iff_lt_or_eq.mp hlj with hlt | rfl
  · exact h.latest l m hil hlt ha hm
  · exact hj m ha hm

namespace Trail

variable {E : Nat → Engine} {last : Nat}

theorem trigger_writeAt (h : Trail E last) {i j k : Nat} (hij : i ≤ j) (hj : j ≤ last)
    (hk : k < (E i).writes.length) :
    k < (E j).writes.length ∧ ((E j).writeAt k).trigger = ((E i).writeAt k).trigger := by
  induction hij with
  | refl => exact ⟨hk, rfl⟩
  | @step j _ ih =>
    obtain ⟨hlt, ht⟩ := ih (Nat.le_of_succ_le hj)
    obtain ⟨hlt', hf⟩ := (h.step j hj).writes.follows hlt
    exact ⟨hlt', hf.trigger.trans ht⟩

theorem writes_le (h : Trail E last) {i j : Nat} (hij : i ≤ j) (hj : j ≤ last) :
    (E i).writes.length ≤ (E j).writes.length := by
  by_contra hlt
  exact Nat.lt_irrefl _ (h.trigger_writeAt hij hj (Nat.lt_of_not_le hlt)).1

/-- **A rule records the earlier of two writes first, unless it was still on its way to the rule when
the later was made.** -/
theorem records_in_order (h : Trail E last) {m k₁ k₂ : Nat} {x : GraphWrite} {rule : String}
    (hm : m < last) (hk : k₁ < k₂) (hb : (E m).Begins (E (m + 1)) k₂ x)
    (hn : ¬ (E m).Bears k₁ rule) {i j : Nat} (hi : i < last) (hj : j < last)
    (h₁ : (E i).Records (E (i + 1)) k₁ rule) (h₂ : (E j).Records (E (j + 1)) k₂ rule) : i < j := by
  by_contra hij
  have hji : j ≤ i := Nat.le_of_not_lt hij
  -- the later write had been made when its value was recorded
  have hmj : m ≤ j := by
    by_contra hlt
    have hlen := ((h.reachable (Nat.le_of_lt hj)).bears_of_records (h.step j hj) h₂).1
    have hle := h.writes_le (Nat.le_of_lt (Nat.lt_of_not_le hlt)) (Nat.le_of_lt hm)
    rw [hb.1] at hlen
    exact Nat.not_lt.mpr hle hlen
  have hst := h.steps (Nat.le_trans hmj hji) (Nat.le_of_lt hi)
  have hgone := Steps.not_bears hst (h.reachable (Nat.le_of_lt hm)) (hb.1 ▸ hk) hn
  exact hgone.2 ((h.reachable (Nat.le_of_lt hi)).bears_of_records (h.step i hi) h₁).2

/-- A write whose call is over is on its way to nobody any more. -/
theorem not_bears_of_ends (h : Trail E last) {m k : Nat} (hm : m < last)
    (hk : k < (E m).writes.length) (he : (E m).Ends (E (m + 1)) k) {n : Nat} (hmn : m < n)
    (hn : n ≤ last) (rule : String) : ¬ (E n).Bears k rule := by
  have hE := h.reachable (Nat.le_of_lt hm)
  have hs := h.step m hm
  have hover := hE.not_bears_of_ends hs hk he rule
  exact (Steps.not_bears (h.steps hmn hn) (hE.step hs) (hs.writes.follows hk).1 hover).2

/-- What is recorded of a write is what was written. -/
theorem recordOf_write (h : Trail E last) {m k r i : Nat} {x : GraphWrite} (hm : m < last)
    (hb : (E m).Begins (E (m + 1)) k x) (hi : i ≤ last) (hc : ((E i).runAt r).client = .write k) :
    ((E i).core.recordOf r).fact = ⟨x.name, x.value⟩ ∧ ((E i).core.recordOf r).source = x.node := by
  obtain ⟨hk, htrig⟩ := (h.reachable hi).faithful r k hc
  -- the write stays the same from the step in which it is made
  have hsame : ((E i).writeAt k).trigger = x.trigger := by
    have hmi : m + 1 ≤ i := by
      by_contra hlt
      have hle := h.writes_le (Nat.le_of_lt_succ (Nat.lt_of_not_le hlt)) (Nat.le_of_lt hm)
      rw [hb.1] at hk
      exact Nat.not_lt.mpr hle hk
    obtain ⟨hlt, hx⟩ := hb.trigger
    rw [← hx]
    exact (h.trigger_writeAt hmi hi hlt).2
  have ht : ((E i).core.runAt r).trigger = x.trigger _ := htrig.trans (congrFun hsame _)
  refine ⟨?_, congrArg Trigger.node ht⟩
  exact congr (congrArg Fact.mk (congrArg Trigger.name ht)) (congrArg Trigger.value ht)

/-! ### What is left -/

/-- What is recorded of a notification that is admitted is a fact of its instance afterwards. -/
theorem recordOf_mem (h : Trail E last) {i r : Nat} (hi : i < last)
    (ha : (E i).Accepts (E (i + 1)) r) :
    (E i).core.recordOf r ∈ ((E (i + 1)).core.factsAt ((E i).runAt r).rule).records := by
  have hE := h.reachable (Nat.le_of_lt hi)
  cases ((h.step i hi).core hE.valid).recalls hE.valid hE.unheard with
  | @records m harr hacc hf =>
    obtain rfl := (hacc r).mp ha
    have hrule : ((E i).core.runAt r).rule = ((E i).runAt r).rule := rfl
    rw [hf, if_pos hrule]
    exact List.mem_append_right _ List.mem_cons_self
  | keeps hacc hf => exact absurd ha (hacc r)

/-- **Every fact is the one recorded last.** -/
theorem stems (h : Trail E last) {j n : Nat} {f : FactRecord} (hj : j ≤ last)
    (hf : f ∈ ((E j).core.factsAt n).records) : ∃ i r, Stems E j n f i r := by
  induction j with
  | zero =>
    obtain ⟨_, _, _, _, _, _, h₀⟩ := h.fresh
    rw [h₀] at hf
    cases hf
  | succ j ih =>
    have hE := h.reachable (Nat.le_of_succ_le hj)
    have ih := ih (Nat.le_of_succ_le hj)
    cases ((h.step j hj).core hE.valid).recalls hE.valid hE.unheard with
    | @records m harr hacc hfacts =>
      rw [hfacts n] at hf
      split at hf
      · next hn =>
        rcases List.mem_append.mp hf with hold | hnew
        · obtain ⟨hmem, hname⟩ := List.mem_filter.mp hold
          obtain ⟨i, r, hst⟩ := ih hmem
          refine ⟨i, r, hst.later fun l hl _ heq => ?_⟩
          obtain rfl := (hacc l).mp hl
          exact bne_iff_ne.mp hname heq.symm
        · obtain rfl := List.mem_singleton.mp hnew
          refine ⟨j, m, Nat.lt_succ_self j, hn, (hacc m).mpr rfl, rfl, fun l _ hjl hlj => ?_⟩
          exact absurd (Nat.lt_of_lt_of_le hjl (Nat.le_of_lt_succ hlj)) (Nat.lt_irrefl _)
      · next hn =>
        obtain ⟨i, r, hst⟩ := ih hf
        refine ⟨i, r, hst.later fun l hl hrule _ => hn ?_⟩
        obtain rfl := (hacc l).mp hl
        exact hrule
    | keeps hacc hfacts =>
      obtain ⟨i, r, hst⟩ := ih (hfacts n hf)
      exact ⟨i, r, hst.later fun l hl => absurd hl (hacc l)⟩

theorem id_ruleAt (h : Trail E last) {i j n : Nat} (hi : i ≤ last) (hj : j ≤ last)
    (hni : n < (E i).core.instances.length) (hnj : n < (E j).core.instances.length) :
    ((E i).core.ruleAt n).id = ((E j).core.ruleAt n).id := by
  rcases Nat.le_total i j with hij | hji
  · have hf := (Steps.follows (h.steps hij hj) (h.reachable hi)).rule n hni
    exact congrArg Definition.id hf.definition.symm
  · have hf := (Steps.follows (h.steps hji hi) (h.reachable hj)).rule n hnj
    exact congrArg Definition.id hf.definition

/-- **A fact is never older than the newest write that its instance has recorded**, unless the write
that it stems from was still on its way to the rule when the newer one was made. -/
theorem not_accepts_newer (h : Trail E last) {m j n i r k₁ k₂ : Nat} {f : FactRecord} {x : GraphWrite}
    (hj : j ≤ last) (hst : Stems E j n f i r) (hc : ((E i).runAt r).client = .write k₁)
    (hm : m < last) (hk : k₁ < k₂) (hb : (E m).Begins (E (m + 1)) k₂ x) (hx : x.name = f.fact.name)
    (hn : ¬ (E m).Bears k₁ ((E i).ruleOf r).id) {l s : Nat} (hl : l < j)
    (hs : ((E l).runAt s).rule = n) (hcs : ((E l).runAt s).client = .write k₂) :
    ¬ (E l).Accepts (E (l + 1)) s := by
  intro ha
  have hi : i < last := Nat.lt_of_lt_of_le hst.before hj
  have hll : l < last := Nat.lt_of_lt_of_le hl hj
  have hid : ((E l).ruleOf s).id = ((E i).ruleOf r).id := by
    have hvi := (h.reachable (Nat.le_of_lt hi)).valid.run r (lt_of_client hc)
    have hvl := (h.reachable (Nat.le_of_lt hll)).valid.run s (lt_of_client hcs)
    have hri : ((E i).core.runAt r).rule = n := hst.rule
    have hrl : ((E l).core.runAt s).rule = n := hs
    rw [hri] at hvi
    rw [hrl] at hvl
    have heq := h.id_ruleAt (Nat.le_of_lt hll) (Nat.le_of_lt hi) hvl hvi
    show ((E l).core.ruleAt ((E l).core.runAt s).rule).id
      = ((E i).core.ruleAt ((E i).core.runAt r).rule).id
    rw [hri, hrl]
    exact heq
  have hlt := h.records_in_order hm hk hb hn hi hll ⟨r, hc, rfl, hst.accepts⟩ ⟨s, hcs, hid, ha⟩
  -- so it would have been recorded in place of the fact
  refine hst.latest l s hlt hl ha hs ?_
  have hrec := (h.recordOf_write hm hb (Nat.le_of_lt hll) hcs).1
  exact (congrArg Fact.name hrec).trans hx

end Trail

/-! ## All together -/

/-- In which order the values of writes are recorded in a course, and what is left of them. -/
structure Orderly (E : Nat → Engine) (last : Nat) : Prop where
  /-- A rule records the earlier of two writes first, unless it was still on its way to the rule when
  the later was made. -/
  order : ∀ m k₁ k₂ x rule, m < last → k₁ < k₂ → (E m).Begins (E (m + 1)) k₂ x →
    ¬ (E m).Bears k₁ rule → ∀ i j, i < last → j < last → (E i).Records (E (i + 1)) k₁ rule →
      (E j).Records (E (j + 1)) k₂ rule → i < j
  /-- A write whose call has returned or been given up is on its way to nobody any more. -/
  ended : ∀ m k, m < last → k < (E m).writes.length → (E m).Ends (E (m + 1)) k →
    ∀ n rule, m < n → n ≤ last → ¬ (E n).Bears k rule
  /-- What is recorded of a write is what was written. -/
  value : ∀ m k x i r, m < last → (E m).Begins (E (m + 1)) k x → i < last →
    ((E i).runAt r).client = .write k → (E i).Accepts (E (i + 1)) r →
      (E i).core.recordOf r ∈ ((E (i + 1)).core.factsAt ((E i).runAt r).rule).records ∧
        ((E i).core.recordOf r).fact = ⟨x.name, x.value⟩ ∧
        ((E i).core.recordOf r).source = x.node
  /-- Every fact is the one that was recorded last under its name. -/
  left : ∀ j n f, j ≤ last → f ∈ ((E j).core.factsAt n).records → ∃ i r, Stems E j n f i r
  /-- A fact is never older than the newest write that its instance has recorded under its name, unless
  the write it stems from was still on its way to the rule when the newer was made. -/
  newest : ∀ m j n i r k₁ k₂ f x, j ≤ last → Stems E j n f i r →
    ((E i).runAt r).client = .write k₁ → m < last → k₁ < k₂ → (E m).Begins (E (m + 1)) k₂ x →
      x.name = f.fact.name → ¬ (E m).Bears k₁ ((E i).ruleOf r).id →
        ∀ l s, l < j → ((E l).runAt s).rule = n → ((E l).runAt s).client = .write k₂ →
          ¬ (E l).Accepts (E (l + 1)) s

/-- **Rules record the values of writes in the order of the writes, as far as their calls do not
overlap on the way to the rule.** -/
theorem written_order {E : Nat → Engine} {last : Nat} (h : Trail E last) : Orderly E last where
  order _ _ _ _ _ hm hk hb hn _ _ hi hj h₁ h₂ := h.records_in_order hm hk hb hn hi hj h₁ h₂
  ended _ _ hm hk he _ rule hmn hn := h.not_bears_of_ends hm hk he hmn hn rule
  value _ _ _ _ _ hm hb hi hc ha :=
    ⟨h.recordOf_mem hi ha, h.recordOf_write hm hb (Nat.le_of_lt hi) hc⟩
  left _ _ _ hj hf := h.stems hj hf
  newest _ _ _ _ _ _ _ _ _ hj hst hc hm hk hb hx hn _ _ hl hs hcs :=
    h.not_accepts_newer hj hst hc hm hk hb hx hn hl hs hcs

/-- An engine with a graph, and nothing done to it. -/
def hosted : Engine := { blank with registry := { host := some {} } }

/-- A rule that records what it is told and does nothing. -/
def noting : Definition := { prompt with id := "r2", condition := "false" }

/-- Text is written to an attribute. -/
def writing (text : String) : Request := .write .attribute "n" "a" (.str text)

/-- The rule observes the node, and the first text is written. -/
def noted : Engine := ((hosted.serve (.define noting)).serve (.observe "n" "r2")).serve (writing "1")

/-- The second text is written when the first call has returned. -/
def notedTwice : Engine := noted.next.next.next.next.serve (writing "2")

def calmTrail : Nat → Engine
  | 0 => hosted
  | 1 => hosted.serve (.define noting)
  | 2 => (hosted.serve (.define noting)).serve (.observe "n" "r2")
  | 3 => noted
  | 4 => noted.next
  | 5 => noted.next.next
  | 6 => noted.next.next.next
  | 7 => noted.next.next.next.next
  | 8 => notedTwice
  | 9 => notedTwice.next
  | _ => notedTwice.next.next

theorem trail_calm : Trail calmTrail 10 := by
  have hfresh : hosted.Fresh := ⟨_, _, _, _, _, _, rfl⟩
  refine ⟨hfresh, fun k hk => ?_⟩
  interval_cases k
  · exact .request (q := .define noting) trivial
  · exact .request (q := .observe "n" "r2") trivial
  · exact .request (q := writing "1") trivial
  · exact step_next (by decide +kernel)
  · exact step_next (by decide +kernel)
  · exact step_next (by decide +kernel)
  · exact step_next (by decide +kernel)
  · exact .request (q := writing "2") trivial
  · exact step_next (by decide +kernel)
  · exact step_next (by decide +kernel)

/-- What the second call writes. -/
def secondText : GraphWrite :=
  { node := "n", name := "a", value := .str "2", aspect := .attribute, remaining := [], task := 0 }

/-- Both texts are recorded, and the first one first, because its call had returned. -/
theorem calm_written_order :
    ((calmTrail 4).Records (calmTrail 5) 0 "r2" ∧ (calmTrail 9).Records (calmTrail 10) 1 "r2") ∧
      ∀ i j, i < 10 → j < 10 → (calmTrail i).Records (calmTrail (i + 1)) 0 "r2" →
        (calmTrail j).Records (calmTrail (j + 1)) 1 "r2" → i < j := by
  have h := written_order trail_calm
  have hends : (calmTrail 6).Ends (calmTrail 7) 0 := by
    refine .inl ((returns_iff (by decide +kernel)).mpr ⟨⟨false, ?_⟩, ?_⟩)
    · have hready : (calmTrail 6).ready = [.write 0] := by decide +kernel
      show (calmTrail 6).next = _
      unfold next
      rw [hready]
    · exact ⟨by decide +kernel, by decide +kernel⟩
  have hover := h.ended 6 0 (by decide) (by decide +kernel) hends 7 "r2" (by decide) (by decide)
  refine ⟨⟨⟨0, ?_⟩, ⟨1, ?_⟩⟩, h.order 7 0 1 secondText "r2" (by decide) (by decide) ⟨?_, rfl⟩ hover⟩
  · exact ⟨by decide +kernel, by decide +kernel, by decide +kernel, by decide +kernel⟩
  · exact ⟨by decide +kernel, by decide +kernel, by decide +kernel, by decide +kernel⟩
  · decide +kernel

/-- A rule whose action waits at a gate. -/
def gated : Definition := { prompt with action := "g(\"x\")" }

/-- Both rules observe the node, the one with the gate first. -/
def watched : Engine :=
  (((((hosted.serve (.bind "g" .gate)).serve (.define gated)).serve (.define noting)).serve
    (.observe "n" "r1")).serve (.observe "n" "r2"))

/-- The first call waits for the action of the first rule; the second finds that rule busy and turns to
the other. -/
def overtaking : Engine :=
  (((watched.serve (writing "1")).settleIn 5).serve (writing "2")).settleIn 3

/-- The second call has returned and the gate has been opened, so the first call comes to the other
rule. -/
def overtaken : Engine := ((overtaking.next.settleIn 2).serve (.openGate "x")).settleIn 2

/-- The rule is paused when the second text is written. -/
def dozing : Engine :=
  (((noted.settleIn 4).serve (.setPaused "r2" true)).serve (writing "2")).settleIn 3

/-- The texts that an instance holds as its facts. -/
def texts (E : Engine) (n : Nat) : List String := (E.core.factsAt n).records.map (·.fact.valueText)

theorem reachable_overtaking : overtaking.Reachable := by
  have h₀ : hosted.Reachable := Fresh.reachable ⟨_, _, _, _, _, _, rfl⟩
  have h₁ := h₀.step (.request (q := .bind "g" .gate) trivial)
  have h₂ := h₁.step (.request (q := .define gated) trivial)
  have h₃ := h₂.step (.request (q := .define noting) trivial)
  have h₄ := h₃.step (.request (q := .observe "n" "r1") trivial)
  have h₅ : watched.Reachable := h₄.step (.request (q := .observe "n" "r2") trivial)
  have h₆ := (h₅.step (.request (q := writing "1") trivial)).steps (steps_settleIn 5 _)
  exact (h₆.step (.request (q := writing "2") trivial)).steps (steps_settleIn 3 _)

theorem steps_overtaken : Steps overtaking.next overtaken := by
  have h := (steps_settleIn 2 overtaking.next).tail (.request (q := .openGate "x") trivial)
  exact h.trans (steps_settleIn 2 _)

theorem reachable_dozing : dozing.Reachable := by
  have h₁ : (noted.settleIn 4).Reachable :=
    (trail_calm.reachable (k := 3) (by decide)).steps (steps_settleIn 4 _)
  have h₂ := h₁.step (.request (q := .setPaused "r2" true) trivial)
  exact (h₂.step (.request (q := writing "2") trivial)).steps (steps_settleIn 3 _)

/-- **Of two texts that are written to one attribute, a rule records the second before the first and
is left with the first. A rule that is paused when the second is written is left with the first as
well.** -/
theorem later_text_recorded_first :
    (overtaking.Reachable ∧ Step overtaking overtaking.next ∧ Steps overtaking.next overtaken ∧
        Step overtaken overtaken.next ∧ overtaking.Records overtaking.next 1 "r2" ∧
        overtaken.Records overtaken.next 0 "r2") ∧
      overtaken.writes.map (fun x => (x.aspect, x.node, x.name, (Fact.mk x.name x.value).valueText))
        = [(.attribute, "n", "a", "1"), (.attribute, "n", "a", "2")] ∧
      (overtaken.next.settleIn 2).ready = [] ∧ (overtaken.next.settleIn 2).texts 1 = ["1"] ∧
      dozing.Reachable ∧ dozing.ready = [] ∧ dozing.texts 0 = ["1"] ∧
      dozing.runs.map (fun x => (x.client, x.trigger.rule)) = [(.write 0, "r2"), (.write 1, "r2")] := by
  refine ⟨⟨reachable_overtaking, ?_, steps_overtaken, ?_, ⟨2, ?_⟩, ⟨3, ?_⟩⟩, ?_⟩
  · exact step_next (by decide +kernel)
  · exact step_next (by decide +kernel)
  · exact ⟨by decide +kernel, by decide +kernel, by decide +kernel, by decide +kernel⟩
  · exact ⟨by decide +kernel, by decide +kernel, by decide +kernel, by decide +kernel⟩
  · exact ⟨by decide +kernel, by decide +kernel, by decide +kernel, reachable_dozing,
      by decide +kernel, by decide +kernel, by decide +kernel⟩

end Engine

end ReactiveRules
