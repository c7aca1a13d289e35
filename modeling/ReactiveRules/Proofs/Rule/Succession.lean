import ReactiveRules.Proofs.Dispatch.Line
import ReactiveRules.Rule.Desk

/-!
# `Proofs/Rule/Succession.lean` — who gets the slot next

A release wakes all who wait, and each has to claim the slot anew or be enlisted again on its own turn.
So a waiter loses its place at every release, and takes a new one. **Nobody who waits is forgotten all the
same, and as long as waking and turns are not interfered with, those who wait get the slot in the order in
which they started** (`Desk.slot_passes_in_order`). They can be overtaken if another one starts to wait,
or gives the slot back, while they have been woken and not had their turns
(`Desk.earlier_waiter_overtaken`). All that is said of who comes first supposes that the woken ones have
their turns in the order in which they were woken (`Desk.InTurn`); a desk lets them have them in any.

`Desk.Sound` is kept by every move in every state. The order is kept by each single move, as `Follows`:
those who wait are some of those who waited, and then the one who is enlisted. Read from the woken ones on
(`line`) it is the order of enlisting, whatever happens; read from those on who have had their turn since
the last release (`row`) it is that of starting, if moves are `Orderly`.
-/

set_option autoImplicit false

namespace ReactiveRules.Desk

/-! ## What happens at a desk -/

/-- What can happen at a desk. -/
inductive Move (ω : Type) where
  /-- Somebody claims the slot and does not wait for it. -/
  | claim (w : ω)
  /-- Somebody starts to wait. -/
  | wait (w : ω)
  /-- A waiter that has been woken has its turn. -/
  | resume (w : ω)
  | abort (w : ω)
  | release (w : ω)

variable {ω : Type}

/-- A desk at which nothing has happened yet. -/
def opened (parallel : Bool) : Desk ω := { slot := { parallel } }

/-- Those who wait, in the order in which they were last enlisted: the woken ones come first. -/
def line (d : Desk ω) : List ω := d.woken ++ d.slot.waiting

/-- Those who wait; the ones that have had their turn since the slot was given back come first. -/
def row (d : Desk ω) : List ω := d.slot.waiting ++ d.woken

/-- What is always so at a desk: the slot is held as often as there are holders, who are different; one
that is not parallel is held once at most; and who waits does so because it is held. -/
structure Sound (p : Bool) (d : Desk ω) : Prop where
  parallel : d.slot.parallel = p
  held : d.slot.held = d.holders.length
  holders : d.holders.Nodup
  alone : p = false → d.holders.length ≤ 1
  line : d.line.Nodup
  idle : p = true → d.line = []
  busy : d.slot.waiting ≠ [] → d.holders ≠ []

variable {p : Bool} {d : Desk ω} {w : ω}

theorem Sound.opened (p : Bool) : Sound p (opened p : Desk ω) where
  parallel := rfl
  held := rfl
  holders := List.nodup_nil
  alone := fun _ => Nat.zero_le _
  line := List.nodup_nil
  idle := fun _ => rfl
  busy := fun h => absurd rfl h

theorem Sound.isOpen_iff (h : d.Sound p) : d.slot.isOpen = true ↔ p = true ∨ d.holders = [] := by
  unfold Slot.isOpen
  rw [h.parallel, h.held, Bool.or_eq_true, beq_iff_eq, List.length_eq_zero_iff]

/-- While the slot is open nobody is enlisted. -/
theorem Sound.waiting_of_open (h : d.Sound p) (ho : d.slot.isOpen = true) : d.slot.waiting = [] := by
  rcases h.isOpen_iff.mp ho with hp | hnone
  · exact (List.append_eq_nil_iff.mp (h.idle hp)).2
  · by_contra hw
    exact h.busy hw hnone

variable [DecidableEq ω]

def play (d : Desk ω) : Move ω → Desk ω
  | .claim w => (d.claim? w).getD d
  | .wait w => d.wait w
  | .resume w => d.resume w
  | .abort w => d.abort w
  | .release w => d.release w

def after (d : Desk ω) (ms : List (Move ω)) : Desk ω := ms.foldl play d

theorem awaits_iff : d.awaits w = true ↔ w ∈ d.line := by
  unfold awaits line
  simp [or_comm]

/-! ## Single operations -/

/-- The slot is held once more, by `w`. -/
def hand (d : Desk ω) (w : ω) : Desk ω := d.keep { d.slot with held := d.slot.held + 1 } w

/-- `w` is the last of those who are enlisted. -/
def enlist (d : Desk ω) (w : ω) : Desk ω := { d with slot := d.slot.enlist w }

theorem claim?_open (h : d.slot.isOpen = true) : d.claim? w = some (d.hand w) := by
  simp [claim?, Slot.claim?, h, hand]

theorem claim?_closed (h : d.slot.isOpen = false) : d.claim? w = none := by
  simp [claim?, Slot.claim?, h]

theorem play_claim_open (h : d.slot.isOpen = true) : d.play (.claim w) = d.hand w := by
  simp [play, claim?_open h]

theorem play_claim_closed (h : d.slot.isOpen = false) : d.play (.claim w) = d := by
  simp [play, claim?_closed h]

theorem turn_open (h : d.slot.isOpen = true) : d.turn w = d.hand w := by
  simp [turn, claim?_open h]

theorem turn_closed (h : d.slot.isOpen = false) : d.turn w = d.enlist w := by
  simp [turn, claim?_closed h, enlist]

theorem release_holder (hw : w ∈ d.holders) : d.release w =
    { slot := { d.slot with held := d.slot.held - 1, waiting := [] }
      holders := d.holders.erase w
      woken := d.woken ++ d.slot.waiting } := if_pos hw

theorem release_other (hw : w ∉ d.holders) : d.release w = d := if_neg hw

/-- A holder that takes the slot once more gives it back at once; nobody is woken, because nobody waits
for a parallel slot. -/
theorem Sound.hand_eq (h : d.Sound p) (ho : d.slot.isOpen = true) (w : ω) :
    w ∉ d.holders ∧ d.hand w = { d with
        slot := { d.slot with held := d.slot.held + 1 }, holders := d.holders ++ [w] } ∨
      p = true ∧ w ∈ d.holders ∧ d.hand w = { d with holders := (d.holders ++ [w]).erase w } := by
  unfold hand keep
  by_cases hw : w ∈ d.holders
  · right
    have hp : p = true := by
      rcases h.isOpen_iff.mp ho with hp | hnone
      · exact hp
      · rw [hnone] at hw
        cases hw
    have hwait := h.waiting_of_open ho
    have hslot : { d.slot with waiting := [] } = d.slot := by rw [← hwait]
    refine ⟨hp, hw, ?_⟩
    rw [if_pos hw, release_holder (List.mem_append_left _ hw)]
    simp only [Nat.add_sub_cancel, hwait, List.append_nil, hslot]
  · exact .inl ⟨hw, by rw [if_neg hw]⟩

theorem Sound.hand (h : d.Sound p) (ho : d.slot.isOpen = true) (w : ω) : Sound p (d.hand w) := by
  rcases h.hand_eq ho w with ⟨hw, heq⟩ | ⟨hp, hw, heq⟩
  · rw [heq]
    refine ⟨h.parallel, ?_, ?_, ?_, h.line, h.idle, fun _ => by simp⟩
    · simp [h.held]
    · exact List.nodup_append_comm.mp (List.nodup_cons.mpr ⟨hw, h.holders⟩)
    · intro hp
      rcases h.isOpen_iff.mp ho with hp' | hnone
      · rw [hp] at hp'
        cases hp'
      · simp [hnone]
  · have hperm : ((d.holders ++ [w]).erase w).Perm d.holders := by
      rw [List.erase_append_left _ hw]
      exact List.perm_append_comm.trans (List.perm_cons_erase hw).symm
    rw [heq]
    refine ⟨h.parallel, h.held.trans hperm.length_eq.symm, hperm.nodup_iff.mpr h.holders, ?_,
      h.line, h.idle, fun hne => absurd (h.waiting_of_open ho) hne⟩
    rw [hp]
    exact fun hp => by cases hp

theorem Sound.woken_hand (h : d.Sound p) (ho : d.slot.isOpen = true) (w : ω) :
    (d.hand w).woken = d.woken := by
  rcases h.hand_eq ho w with ⟨-, heq⟩ | ⟨-, -, heq⟩ <;> rw [heq]

theorem Sound.waiting_hand (h : d.Sound p) (ho : d.slot.isOpen = true) (w : ω) :
    (d.hand w).slot.waiting = d.slot.waiting := by
  rcases h.hand_eq ho w with ⟨-, heq⟩ | ⟨-, -, heq⟩ <;> rw [heq]

omit [DecidableEq ω] in
/-- Fewer wait. -/
theorem Sound.thin {woken waiting : List ω} (h : d.Sound p) (hwoken : woken.Sublist d.woken)
    (hwaiting : waiting.Sublist d.slot.waiting) :
    Sound p { d with slot := { d.slot with waiting }, woken } := by
  have hline : (woken ++ waiting).Sublist d.line := hwoken.append hwaiting
  refine ⟨h.parallel, h.held, h.holders, h.alone, h.line.sublist hline, fun hp => ?_, fun hne => ?_⟩
  · have hnil := h.idle hp
    rw [hnil] at hline
    exact List.sublist_nil.mp hline
  · refine h.busy fun hnil => hne ?_
    rw [hnil] at hwaiting
    exact List.sublist_nil.mp hwaiting

theorem Sound.abort (h : d.Sound p) (w : ω) : Sound p (d.abort w) :=
  h.thin List.erase_sublist List.erase_sublist

theorem Sound.notMem_abort (h : d.Sound p) (w : ω) : w ∉ (d.abort w).line := by
  have hn := List.nodup_append.mp h.line
  intro hw
  rcases List.mem_append.mp hw with hw | hw
  · exact hn.1.not_mem_erase hw
  · exact hn.2.1.not_mem_erase hw

omit [DecidableEq ω] in
theorem Sound.enlist (h : d.Sound p) (hc : d.slot.isOpen = false) (hw : w ∉ d.line) :
    Sound p (d.enlist w) := by
  have hclosed : ¬ (p = true ∨ d.holders = []) := fun ho => by
    rw [h.isOpen_iff.mpr ho] at hc
    cases hc
  refine ⟨h.parallel, h.held, h.holders, h.alone, ?_, fun hp => absurd (.inl hp) hclosed,
    fun _ hnone => hclosed (.inr hnone)⟩
  show (d.woken ++ (d.slot.waiting ++ [w])).Nodup
  rw [← List.append_assoc]
  exact List.nodup_append_comm.mp (List.nodup_cons.mpr ⟨hw, h.line⟩)

theorem Sound.turn (h : d.Sound p) (hw : w ∉ d.line) : Sound p (d.turn w) := by
  cases ho : d.slot.isOpen with
  | true => rw [turn_open ho]; exact h.hand ho w
  | false => rw [turn_closed ho]; exact h.enlist ho hw

/-- The desk while `w` has its turn: it is not among the woken any more. -/
def up (d : Desk ω) (w : ω) : Desk ω := { d with woken := d.woken.erase w }

theorem Sound.up (h : d.Sound p) (w : ω) : Sound p (d.up w) :=
  h.thin List.erase_sublist (List.Sublist.refl _)

theorem Sound.notMem_up (h : d.Sound p) (hw : w ∈ d.woken) : w ∉ (d.up w).line := by
  have hn := List.nodup_append.mp h.line
  intro hmem
  rcases List.mem_append.mp hmem with hmem | hmem
  · exact hn.1.not_mem_erase hmem
  · exact hn.2.2 _ hw _ hmem rfl

theorem resume_woken (hw : w ∈ d.woken) : d.resume w = (d.up w).turn w := if_pos hw

theorem resume_other (hw : w ∉ d.woken) : d.resume w = d := if_neg hw

theorem Sound.release (h : d.Sound p) (w : ω) : Sound p (d.release w) := by
  by_cases hw : w ∈ d.holders
  · rw [release_holder hw]
    have hlen := List.length_erase_of_mem hw
    refine ⟨h.parallel, ?_, h.holders.erase w, fun hp => ?_, ?_, fun hp => ?_,
      fun hne => absurd rfl hne⟩
    · show d.slot.held - 1 = _
      rw [h.held, hlen]
    · have := h.alone hp
      show (d.holders.erase w).length ≤ 1
      omega
    · show ((d.woken ++ d.slot.waiting) ++ []).Nodup
      rw [List.append_nil]
      exact h.line
    · show (d.woken ++ d.slot.waiting) ++ [] = []
      rw [List.append_nil]
      exact h.idle hp
  · rw [release_other hw]
    exact h

/-- Whatever happens at a desk, in whatever order. -/
theorem Sound.play (h : d.Sound p) (m : Move ω) : Sound p (d.play m) := by
  cases m with
  | claim w =>
    cases ho : d.slot.isOpen with
    | true => rw [play_claim_open ho]; exact h.hand ho w
    | false => rw [play_claim_closed ho]; exact h
  | wait w => exact (h.abort w).turn (h.notMem_abort w)
  | resume w =>
    show Sound p (d.resume w)
    by_cases hw : w ∈ d.woken
    · rw [resume_woken hw]
      exact (h.up w).turn (h.notMem_up hw)
    · rw [resume_other hw]
      exact h
  | abort w => exact h.abort w
  | release w => exact h.release w

theorem Sound.after (ms : List (Move ω)) (h : d.Sound p) : Sound p (d.after ms) := by
  induction ms generalizing d with
  | nil => exact h
  | cons m rest ih => exact ih (h.play m)

/-! ## The order of those who wait -/

/-- Some of `l`, in their order, and then some of `zs`. -/
def Follows (l zs l' : List ω) : Prop :=
  ∃ rest ys, rest.Sublist l ∧ ys.Sublist zs ∧ (∀ w ∈ zs, w ∉ rest) ∧ l' = rest ++ ys

omit [DecidableEq ω] in
theorem Follows.of_sublist {l l' : List ω} (h : l'.Sublist l) : Follows l [] l' :=
  ⟨l', [], h, List.Sublist.refl _, fun _ hw => absurd hw List.not_mem_nil, (List.append_nil _).symm⟩

omit [DecidableEq ω] in
theorem Follows.of_eq {l l' : List ω} (h : l' = l) : Follows l [] l' := by
  rw [h]
  exact Follows.of_sublist (List.Sublist.refl _)

/-- In order of their last places in a record, and still so with one more in the record. -/
theorem Follows.sublist_dedup {l l' zs xs : List ω} (h : Follows l zs l') (hz : zs.length ≤ 1)
    (hl : l.Sublist xs.dedup) : l'.Sublist (xs ++ zs).dedup := by
  obtain ⟨rest, ys, hrest, hys, hnot, rfl⟩ := h
  match zs, hz with
  | [], _ =>
    rw [List.sublist_nil.mp hys, List.append_nil, List.append_nil]
    exact hrest.trans hl
  | [w], _ =>
    have hkept : rest.filter (· != w) = rest := List.filter_eq_self.mpr fun x hx =>
      bne_iff_ne.mpr fun hxw => hnot w List.mem_cons_self (hxw ▸ hx)
    rw [dedup_concat]
    refine List.Sublist.append ?_ hys
    rw [← hkept]
    exact (hrest.trans hl).filter _

/-- Out of a list without repetitions some are the ones they are, in its order. -/
theorem eq_filter_of_sublist {l xs : List ω} (h : l.Sublist xs) (hn : xs.Nodup) :
    l = xs.filter (· ∈ l) := by
  have hsub : l.Sublist (xs.filter (· ∈ l)) := by
    have := h.filter (· ∈ l)
    rwa [List.filter_eq_self.mpr fun x hx => decide_eq_true hx] at this
  have hperm : l.Perm (xs.filter (· ∈ l)) :=
    (List.perm_ext_iff_of_nodup (hn.sublist h) (hn.filter _)).mpr fun x => by
      simpa using fun hx => h.subset hx
  exact hsub.eq_of_length hperm.length_eq

/-- Who has to wait, or to wait on, at a move. -/
def enlists (d : Desk ω) : Move ω → List ω
  | .wait w => if d.slot.isOpen then [] else [w]
  | .resume w => if w ∈ d.woken then (if d.slot.isOpen then [] else [w]) else []
  | _ => []

/-- All who were enlisted, one after another. -/
def enlistings (d : Desk ω) : List (Move ω) → List ω
  | [] => []
  | m :: ms => d.enlists m ++ (d.play m).enlistings ms

/-- Who starts to wait. -/
def Move.starts : Move ω → List ω
  | .wait w => [w]
  | _ => []

theorem length_enlists (d : Desk ω) (m : Move ω) : (d.enlists m).length ≤ 1 := by
  have hone : ∀ w, (if d.slot.isOpen then [] else [w] : List ω).length ≤ 1 := fun w => by
    split <;> simp
  unfold enlists
  split
  · exact hone _
  · split
    · exact hone _
    · exact Nat.zero_le _
  · exact Nat.zero_le _

omit [DecidableEq ω] in
theorem Move.length_starts (m : Move ω) : m.starts.length ≤ 1 := by
  cases m <;> simp [Move.starts]

theorem line_hand (h : d.Sound p) (ho : d.slot.isOpen = true) (w : ω) :
    (d.hand w).line = d.line := by
  unfold line
  rw [h.woken_hand ho, h.waiting_hand ho]

omit [DecidableEq ω] in
theorem line_enlist (d : Desk ω) (w : ω) : (d.enlist w).line = d.line ++ [w] :=
  (List.append_assoc _ _ _).symm

theorem line_release (d : Desk ω) (w : ω) : (d.release w).line = d.line := by
  by_cases hw : w ∈ d.holders
  · rw [release_holder hw]
    exact List.append_nil _
  · rw [release_other hw]

/-- Whoever has its turn leaves the line or comes last. -/
theorem follows_turn {l : List ω} (h : d.Sound p) (hl : d.line.Sublist l) (hw : w ∉ d.line) :
    Follows l (if d.slot.isOpen then [] else [w]) (d.turn w).line := by
  cases ho : d.slot.isOpen with
  | true =>
    rw [turn_open ho, line_hand h ho]
    exact Follows.of_sublist hl
  | false =>
    rw [turn_closed ho, line_enlist]
    refine ⟨d.line, [w], hl, List.Sublist.refl _, fun x hx => ?_, rfl⟩
    rw [List.mem_singleton.mp hx]
    exact hw

/-- Nobody in the line moves but the one who is enlisted. -/
theorem Sound.follows_line (h : d.Sound p) (m : Move ω) :
    Follows d.line (d.enlists m) (d.play m).line := by
  cases m with
  | claim w =>
    apply Follows.of_eq
    cases ho : d.slot.isOpen with
    | true => rw [play_claim_open ho, line_hand h ho]
    | false => rw [play_claim_closed ho]
  | wait w =>
    exact follows_turn (h.abort w) (List.erase_sublist.append List.erase_sublist)
      (h.notMem_abort w)
  | resume w =>
    show Follows d.line (if w ∈ d.woken then _ else _) (d.resume w).line
    by_cases hw : w ∈ d.woken
    · rw [resume_woken hw, if_pos hw]
      exact follows_turn (h.up w) (List.erase_sublist.append (List.Sublist.refl _))
        (h.notMem_up hw)
    · rw [resume_other hw, if_neg hw]
      exact Follows.of_eq rfl
  | abort w => exact Follows.of_sublist (List.erase_sublist.append List.erase_sublist)
  | release w => exact Follows.of_eq (line_release d w)

/-- Those who wait do so in the order in which they were last enlisted. -/
theorem Sound.line_after (xs : List ω) (ms : List (Move ω)) (h : d.Sound p)
    (hl : d.line.Sublist xs.dedup) :
    (d.after ms).line.Sublist (xs ++ d.enlistings ms).dedup := by
  induction ms generalizing d xs with
  | nil =>
    rw [enlistings, List.append_nil]
    exact hl
  | cons m rest ih =>
    rw [enlistings, ← List.append_assoc]
    exact ih _ (h.play m) ((h.follows_line m).sublist_dedup (d.length_enlists m) hl)

/-! ## The order of those who started -/

/-- A move that finds those who were woken out of the way, or is the turn of the first of them: nobody who
has to wait starts, and the slot is not given back, while there are others to have their turns. -/
def Orderly (d : Desk ω) : Move ω → Prop
  | .wait _ => d.woken = [] ∨ d.slot.isOpen = true
  | .resume w => w ∈ d.woken → d.woken.head? = some w
  | .release _ => d.woken = [] ∨ d.slot.waiting = []
  | _ => True

/-- All moves are orderly, each when it is made. -/
def InOrder (d : Desk ω) : List (Move ω) → Prop
  | [] => True
  | m :: ms => d.Orderly m ∧ (d.play m).InOrder ms

theorem row_hand (h : d.Sound p) (ho : d.slot.isOpen = true) (w : ω) : (d.hand w).row = d.row := by
  unfold row
  rw [h.woken_hand ho, h.waiting_hand ho]

omit [DecidableEq ω] in
theorem row_enlist (d : Desk ω) (w : ω) : (d.enlist w).row = d.slot.waiting ++ w :: d.woken :=
  List.append_assoc _ _ _

omit [DecidableEq ω] in
theorem mem_row_iff : w ∈ d.row ↔ w ∈ d.line := by
  unfold row line
  rw [List.mem_append, List.mem_append, or_comm]

/-- In orderly moves nobody is overtaken by one who has started later. -/
theorem Sound.follows_row (h : d.Sound p) {m : Move ω} (hm : d.Orderly m) :
    Follows d.row m.starts (d.play m).row := by
  cases m with
  | claim w =>
    apply Follows.of_eq
    cases ho : d.slot.isOpen with
    | true => rw [play_claim_open ho, row_hand h ho]
    | false => rw [play_claim_closed ho]
  | wait w =>
    have hsub : (d.abort w).row.Sublist d.row := List.erase_sublist.append List.erase_sublist
    have hnot : w ∉ (d.abort w).row := fun hw => h.notMem_abort w (mem_row_iff.mp hw)
    show Follows d.row [w] ((d.abort w).turn w).row
    cases ho : (d.abort w).slot.isOpen with
    | true =>
      rw [turn_open ho, row_hand (h.abort w) ho]
      exact ⟨_, [], hsub, List.nil_sublist _, by simpa using hnot, (List.append_nil _).symm⟩
    | false =>
      have hnone : d.woken = [] := hm.resolve_right fun ho' => by
        rw [show (d.abort w).slot.isOpen = d.slot.isOpen from rfl, ho'] at ho
        cases ho
      have hnone' : (d.abort w).woken = [] := by simp [Desk.abort, hnone]
      rw [turn_closed ho, row_enlist, hnone']
      refine ⟨_, [w], hsub, List.Sublist.refl _, by simpa using hnot, ?_⟩
      simp [row, hnone']
  | resume w =>
    show Follows d.row [] (d.resume w).row
    by_cases hw : w ∈ d.woken
    · rw [resume_woken hw]
      cases ho : (d.up w).slot.isOpen with
      | true =>
        rw [turn_open ho, row_hand (h.up w) ho]
        exact Follows.of_sublist ((List.Sublist.refl _).append List.erase_sublist)
      | false =>
        -- the first of the woken ones comes last of those who have had their turn
        obtain ⟨rest, hwoken⟩ := List.head?_eq_some_iff.mp (hm hw)
        apply Follows.of_eq
        rw [turn_closed ho, row_enlist]
        simp [row, Desk.up, hwoken]
    · rw [resume_other hw]
      exact Follows.of_eq rfl
  | abort w => exact Follows.of_sublist (List.erase_sublist.append List.erase_sublist)
  | release w =>
    apply Follows.of_eq
    show (d.release w).row = d.row
    by_cases hw : w ∈ d.holders
    · rw [release_holder hw]
      rcases hm with hnone | hnone <;> simp [row, hnone]
    · rw [release_other hw]

/-- Those who wait do so in the order in which they started. -/
theorem Sound.row_after (xs : List ω) (ms : List (Move ω)) (h : d.Sound p) (hms : d.InOrder ms)
    (hl : d.row.Sublist xs.dedup) :
    (d.after ms).row.Sublist (xs ++ ms.flatMap Move.starts).dedup := by
  induction ms generalizing d xs with
  | nil =>
    rw [List.flatMap_nil, List.append_nil]
    exact hl
  | cons m rest ih =>
    rw [List.flatMap_cons, ← List.append_assoc]
    exact ih _ (h.play m) hms.2 ((h.follows_row hms.1).sublist_dedup m.length_starts hl)

/-! ## Settling -/

/-- When the slot is held, settling only puts the woken ones behind the others. -/
theorem settle_closed (hc : d.slot.isOpen = false) :
    d.settle = { d with slot := { d.slot with waiting := d.row }, woken := [] } := by
  suffices key : ∀ (ws : List ω) (d : Desk ω), d.woken = ws → d.slot.isOpen = false →
      ws.foldl resume d = { d with slot := { d.slot with waiting := d.row }, woken := [] } from
    key d.woken d rfl hc
  intro ws
  induction ws with
  | nil =>
    rintro ⟨slot, holders, woken⟩ hw _
    obtain rfl : woken = [] := hw
    simp [row]
  | cons w rest ih =>
    intro d hw hc
    have hmem : w ∈ d.woken := hw ▸ List.mem_cons_self
    have hturn : d.resume w = (d.up w).enlist w := by
      rw [resume_woken hmem]
      exact turn_closed hc
    rw [List.foldl_cons, hturn, ih ((d.up w).enlist w) (by simp [Desk.enlist, Desk.up, hw]) hc,
      row_enlist]
    simp [Desk.enlist, Desk.up, Slot.enlist, row, hw]

theorem Sound.woken_resume (h : d.Sound p) (hw : w ∈ d.woken) :
    (d.resume w).woken = d.woken.erase w := by
  rw [resume_woken hw]
  cases ho : (d.up w).slot.isOpen with
  | true => rw [turn_open ho, (h.up w).woken_hand ho, Desk.up]
  | false => rw [turn_closed ho]; rfl

theorem settle_eq_after (d : Desk ω) : d.settle = d.after (d.woken.map .resume) := by
  unfold after settle
  rw [List.foldl_map]
  rfl

/-- Settling is orderly, and then nobody is woken any more. -/
theorem Sound.settles (h : d.Sound p) :
    d.InOrder (d.woken.map .resume) ∧ d.settle.woken = [] := by
  suffices key : ∀ (ws : List ω) (d : Desk ω), d.Sound p → d.woken = ws →
      d.InOrder (ws.map .resume) ∧ (ws.foldl resume d).woken = [] from key d.woken d h rfl
  intro ws
  induction ws with
  | nil => exact fun d _ hw => ⟨trivial, hw⟩
  | cons w rest ih =>
    intro d h hw
    have hnext : (d.resume w).woken = rest := by
      rw [h.woken_resume (hw ▸ List.mem_cons_self), hw, List.erase_cons_head]
    obtain ⟨horder, hwoken⟩ := ih (d.resume w) (h.play (.resume w)) hnext
    exact ⟨⟨fun _ => by rw [hw]; rfl, horder⟩, hwoken⟩

omit [DecidableEq ω] in
/-- Of a slot that is not parallel and open, nobody is a holder. -/
theorem Sound.vacant (h : d.Sound p) (ho : d.slot.isOpen = true) (hl : d.line ≠ []) :
    p = false ∧ d.holders = [] := by
  have hp : p = false := Bool.eq_false_iff.mpr fun hp => hl (h.idle hp)
  refine ⟨hp, (h.isOpen_iff.mp ho).resolve_left ?_⟩
  rw [hp]
  exact Bool.false_ne_true

/-- The first of the woken ones takes the slot. -/
theorem Sound.resume_first (h : d.Sound p) {rest : List ω} (ho : d.slot.isOpen = true)
    (hw : d.woken = w :: rest) : (d.resume w).holders = [w] := by
  obtain ⟨-, hnone⟩ := h.vacant ho (by simp [Desk.line, hw])
  have hup : (d.up w).slot.isOpen = true := ho
  have hmem : w ∈ d.woken := hw ▸ List.mem_cons_self
  rw [resume_woken hmem, turn_open hup]
  have hnone' : (d.up w).holders = [] := hnone
  rcases (h.up w).hand_eq hup w with ⟨-, heq⟩ | ⟨-, hholder, -⟩
  · rw [heq, hnone']
    rfl
  · rw [hnone'] at hholder
    cases hholder

theorem Sound.settle_open (h : d.Sound p) {rest : List ω} (ho : d.slot.isOpen = true)
    (hw : d.woken = w :: rest) : d.settle.holders = [w] ∧ d.settle.slot.waiting = rest := by
  have hmem : w ∈ d.woken := hw ▸ List.mem_cons_self
  have hholders := h.resume_first ho hw
  have hnext : (d.resume w).woken = rest := by
    rw [h.woken_resume hmem, hw, List.erase_cons_head]
  have hwait : (d.resume w).slot.waiting = [] := by
    have hup : (d.up w).slot.isOpen = true := ho
    rw [resume_woken hmem, turn_open hup, (h.up w).waiting_hand hup]
    exact h.waiting_of_open ho
  have hclosed : (d.resume w).slot.isOpen = false := by
    refine Bool.eq_false_iff.mpr fun ho' => ?_
    rcases (h.play (.resume w)).isOpen_iff.mp ho' with hp | hnone
    · rw [(h.vacant ho (by simp [Desk.line, hw])).1] at hp
      cases hp
    · rw [show (d.play (.resume w)).holders = [w] from hholders] at hnone
      cases hnone
  have hsettle : d.settle = (d.resume w).settle := by
    unfold settle
    rw [hw, hnext, List.foldl_cons]
  rw [hsettle, settle_closed hclosed]
  exact ⟨hholders, by simp [row, hwait, hnext]⟩

/-- When nobody is to have its turn, whoever gives the slot back gives it to the first of those who wait. -/
theorem Sound.hand_over (h : d.Sound p) (hs : d.woken = []) {a v : ω} {rest : List ω}
    (hw : d.slot.waiting = a :: rest) (hv : v ∈ d.holders) :
    (d.release v).settle.holders = [a] ∧ (d.release v).settle.slot.waiting = rest := by
  have hp : p = false := Bool.eq_false_iff.mpr fun hp => by
    have hidle := h.idle hp
    rw [Desk.line, hw] at hidle
    simp at hidle
  have hwoken : (d.release v).woken = a :: rest := by
    rw [release_holder hv]
    simp [hs, hw]
  have hopen : (d.release v).slot.isOpen = true := by
    refine (h.release v).isOpen_iff.mpr (.inr ?_)
    rw [release_holder hv]
    apply List.eq_nil_of_length_eq_zero
    have hlen := List.length_erase_of_mem hv
    have hone := h.alone hp
    show (d.holders.erase v).length = 0
    omega
  exact (h.release v).settle_open hopen hwoken

/-- Each of the moves is made when those who have been woken have had their turns. -/
def patiently (d : Desk ω) : List (Move ω) → List (Move ω)
  | [] => []
  | m :: ms => m :: ((d.play m).woken.map .resume ++ (d.play m).settle.patiently ms)

theorem inOrder_append (d : Desk ω) (ms ns : List (Move ω)) :
    d.InOrder (ms ++ ns) ↔ d.InOrder ms ∧ (d.after ms).InOrder ns := by
  induction ms generalizing d with
  | nil => simp [InOrder, after]
  | cons m rest ih =>
    simp only [List.cons_append, InOrder, ih, and_assoc]
    rfl

/-- Whatever is done, it is orderly if it is done patiently. -/
theorem Sound.inOrder_patiently (ms : List (Move ω)) (h : d.Sound p) (hs : d.woken = []) :
    d.InOrder (d.patiently ms) := by
  induction ms generalizing d with
  | nil => trivial
  | cons m rest ih =>
    have horderly : d.Orderly m := by
      cases m with
      | claim | abort => trivial
      | wait | release => exact .inl hs
      | resume w =>
        intro hw
        rw [hs] at hw
        cases hw
    obtain ⟨hsettle, hwoken⟩ := (h.play m).settles
    refine ⟨horderly, (inOrder_append _ _ _).mpr ⟨hsettle, ?_⟩⟩
    rw [← settle_eq_after]
    refine ih ?_ hwoken
    rw [settle_eq_after]
    exact (h.play m).after _

/-! ## Going away -/

theorem Sound.line_abort (h : d.Sound p) (w : ω) : (d.abort w).line = d.line.erase w := by
  show d.woken.erase w ++ d.slot.waiting.erase w = (d.woken ++ d.slot.waiting).erase w
  by_cases hw : w ∈ d.woken
  · have hnot : w ∉ d.slot.waiting := fun hw' => (List.nodup_append.mp h.line).2.2 w hw w hw' rfl
    rw [List.erase_append_left _ hw, List.erase_of_not_mem hnot]
  · rw [List.erase_append_right _ hw, List.erase_of_not_mem hw]

theorem Sound.mem_hand (h : d.Sound p) (ho : d.slot.isOpen = true) {v : ω}
    (hw : w ∈ (d.hand v).holders) : w = v ∨ w ∈ d.holders := by
  have happend : w ∈ d.holders ++ [v] := by
    rcases h.hand_eq ho v with ⟨-, heq⟩ | ⟨-, -, heq⟩
    · rw [heq] at hw
      exact hw
    · rw [heq] at hw
      exact List.mem_of_mem_erase hw
  rcases List.mem_append.mp happend with hw | hw
  · exact .inr hw
  · exact .inl (List.mem_singleton.mp hw)

theorem Sound.mem_turn (h : d.Sound p) {v : ω} (hw : w ∈ (d.turn v).holders) :
    w = v ∨ w ∈ d.holders := by
  cases ho : d.slot.isOpen with
  | true =>
    rw [turn_open ho] at hw
    exact h.mem_hand ho hw
  | false =>
    rw [turn_closed ho] at hw
    exact .inr hw

/-- Who comes to hold the slot claims it, starts to wait for it, or has been woken and finds it open. -/
theorem Sound.takes (h : d.Sound p) {m : Move ω} (hheld : w ∈ (d.play m).holders) :
    w ∈ d.holders ∨ m = .claim w ∨ m = .wait w ∨
      (m = .resume w ∧ w ∈ d.woken ∧ d.slot.isOpen = true) := by
  cases m with
  | claim v =>
    cases ho : d.slot.isOpen with
    | true =>
      rw [play_claim_open ho] at hheld
      exact (h.mem_hand ho hheld).elim (fun hv => .inr (.inl (hv ▸ rfl))) .inl
    | false =>
      rw [play_claim_closed ho] at hheld
      exact .inl hheld
  | wait v =>
    exact ((h.abort v).mem_turn hheld).elim (fun hv => .inr (.inr (.inl (hv ▸ rfl)))) .inl
  | resume v =>
    have hheld : w ∈ (d.resume v).holders := hheld
    by_cases hv : v ∈ d.woken
    · rw [resume_woken hv] at hheld
      cases ho : d.slot.isOpen with
      | true =>
        refine ((h.up v).mem_turn hheld).elim (fun hwv => ?_) .inl
        rw [hwv]
        exact .inr (.inr (.inr ⟨rfl, hv, rfl⟩))
      | false =>
        have hup : (d.up v).slot.isOpen = false := ho
        rw [turn_closed hup] at hheld
        exact .inl hheld
    · rw [resume_other hv] at hheld
      exact .inl hheld
  | abort v => exact .inl hheld
  | release v =>
    have hheld : w ∈ (d.release v).holders := hheld
    by_cases hv : v ∈ d.holders
    · rw [release_holder hv] at hheld
      exact .inl (List.mem_of_mem_erase hheld)
    · rw [release_other hv] at hheld
      exact .inl hheld

/-- Who does not wait, and does not start to or claim the slot, does not come to hold it. -/
theorem Sound.holders_play (h : d.Sound p) (hw : w ∉ d.line) {m : Move ω} (hwait : m ≠ .wait w)
    (hclaim : m ≠ .claim w) (hheld : w ∈ (d.play m).holders) : w ∈ d.holders := by
  rcases h.takes hheld with hholds | hm | hm | ⟨-, hwoken, -⟩
  · exact hholds
  · exact absurd hm hclaim
  · exact absurd hm hwait
  · exact absurd (List.mem_append_left _ hwoken) hw

theorem Sound.notMem_play (h : d.Sound p) (hw : w ∉ d.line) {m : Move ω} (hwait : m ≠ .wait w) :
    w ∉ (d.play m).line := by
  obtain ⟨rest, ys, hrest, hys, -, heq⟩ := h.follows_line m
  intro hmem
  rw [heq] at hmem
  rcases List.mem_append.mp hmem with hmem | hmem
  · exact hw (hrest.subset hmem)
  · have hlist := hys.subset hmem
    unfold enlists at hlist
    split at hlist
    · split at hlist
      · cases hlist
      · exact hwait (List.mem_singleton.mp hlist ▸ rfl)
    · split at hlist
      · next v hv =>
        split at hlist
        · cases hlist
        · exact hw (List.mem_append_left _ (List.mem_singleton.mp hlist ▸ hv))
      · cases hlist
    · cases hlist

/-- Who has gone away stays away, and gets nothing. -/
theorem Sound.away (h : d.Sound p) (hw : w ∉ d.line) {ms : List (Move ω)}
    (hms : ∀ m ∈ ms, m ≠ .wait w ∧ m ≠ .claim w) :
    w ∉ (d.after ms).line ∧ (w ∈ (d.after ms).holders → w ∈ d.holders) := by
  induction ms generalizing d with
  | nil => exact ⟨hw, id⟩
  | cons m rest ih =>
    obtain ⟨hwait, hclaim⟩ := hms m List.mem_cons_self
    obtain ⟨hline, hheld⟩ := ih (h.play m) (h.notMem_play hw hwait) fun m' hm' =>
      hms m' (List.mem_cons_of_mem _ hm')
    exact ⟨hline, fun hmem => h.holders_play hw hwait hclaim (hheld hmem)⟩

/-! ## Succession -/

/-- After everyone who was woken has had its turn, who waits does so because the slot is held. -/
theorem Sound.held_of_awaits (h : d.Sound p) (hs : d.woken = []) (hw : d.awaits w = true) :
    p = false ∧ d.holders ≠ [] := by
  have hmem : w ∈ d.line := awaits_iff.mp hw
  have hwaiting : w ∈ d.slot.waiting := by rwa [Desk.line, hs, List.nil_append] at hmem
  exact ⟨Bool.eq_false_iff.mpr fun hp => List.ne_nil_of_mem hmem (h.idle hp),
    h.busy (List.ne_nil_of_mem hwaiting)⟩

/-- If the move is the turn of one who has been woken, then of the first of them: they have their turns in
the order in which they were woken. -/
def InTurn (d : Desk ω) (m : Move ω) : Prop :=
  ∀ w, m = .resume w → w ∈ d.woken → d.woken.head? = some w

/-- With turns in the order of waking, who gets the slot after waiting is the first in the line, and holds
it alone. -/
theorem Sound.taken_by_first (h : d.Sound p) {m : Move ω} (hturn : d.InTurn m) (hw : w ∉ d.holders)
    (hclaim : m ≠ .claim w) (hwait : m ≠ .wait w) (hheld : w ∈ (d.play m).holders) :
    d.line.head? = some w ∧ (d.play m).holders = [w] := by
  obtain ⟨rfl, hwoken, ho⟩ : m = .resume w ∧ w ∈ d.woken ∧ d.slot.isOpen = true :=
    (((h.takes hheld).resolve_left hw).resolve_left hclaim).resolve_left hwait
  obtain ⟨rest, hfirst⟩ := List.head?_eq_some_iff.mp (hturn w rfl hwoken)
  refine ⟨?_, h.resume_first ho hfirst⟩
  rw [Desk.line, hfirst]
  rfl

/-- All who wait, in the order of a record: they are those in the record who wait. -/
theorem eq_filter_awaits {l xs : List ω} (hl : ∀ x, x ∈ l ↔ x ∈ d.line) (h : l.Sublist xs.dedup) :
    l = xs.dedup.filter (d.awaits ·) := by
  refine (eq_filter_of_sublist h (List.nodup_dedup xs)).trans (List.filter_congr fun x _ => ?_)
  rw [Bool.eq_iff_iff, decide_eq_true_iff, awaits_iff, hl]

/-- **Who gets the slot next.** Whatever happens at a desk, and whenever those who have been woken have
their turns, the slot is held as often as there are holders, by one at most if it is not parallel. When
everyone who was woken has had its turn, somebody waits only because such a slot is held.

Those who wait do so in the order in which they were last enlisted, and with orderly moves, as patient ones
are, in the order in which they started. That they get the slot in this order needs that the woken ones
have their turns in the order in which they were woken (`InTurn`), which is up to the scheduler and not to
the desk: then nobody who waits gets the slot, whatever the move, but the first of them, who holds it
alone. The first of the woken ones does take an open slot, and who gives back the slot when nobody is to
have its turn gives it to the first of those who wait, while the others stay as they are.

Who goes away leaves the slot to those who hold it and the others in their places, and gets nothing unless
it comes again. -/
theorem slot_passes_in_order (p : Bool) (ms : List (Move ω)) :
    let d := (opened p).after ms
    let enlisted := ((opened p).enlistings ms).dedup.filter (d.awaits ·)
    let started := (ms.flatMap Move.starts).dedup.filter (d.awaits ·)
    d.slot.held = d.holders.length ∧ d.holders.Nodup ∧ (p = false → d.holders.length ≤ 1) ∧
    (d.woken = [] → ∀ w, d.awaits w = true → p = false ∧ d.holders ≠ []) ∧
    d.settle.woken = [] ∧
    d.line = enlisted ∧
    ((opened p).InOrder ms → d.row = started) ∧
    (opened p).InOrder ((opened p).patiently ms) ∧
    (∀ m w, d.InTurn m → w ∉ d.holders → m ≠ .claim w → m ≠ .wait w → w ∈ (d.play m).holders →
      enlisted.head? = some w ∧ (d.play m).holders = [w]) ∧
    (∀ w, d.woken.head? = some w → d.slot.isOpen = true →
      (d.resume w).holders = [w] ∧ enlisted.head? = some w ∧
        ((opened p).InOrder ms → started.head? = some w)) ∧
    (∀ v a rest, d.woken = [] → d.slot.waiting = a :: rest → v ∈ d.holders →
      (d.release v).settle.holders = [a] ∧ (d.release v).settle.slot.waiting = rest) ∧
    ∀ w, (d.abort w).holders = d.holders ∧ (d.abort w).slot.held = d.slot.held ∧
      (d.abort w).line = d.line.erase w ∧
      ∀ ms', (∀ m ∈ ms', m ≠ .wait w ∧ m ≠ .claim w) →
        ((d.abort w).after ms').awaits w = false ∧
          (w ∈ ((d.abort w).after ms').holders → w ∈ d.holders) := by
  intro d enlisted started
  have h₀ : Sound p (opened p : Desk ω) := Sound.opened p
  have h : d.Sound p := h₀.after ms
  have hline : d.line = enlisted :=
    eq_filter_awaits (fun _ => Iff.rfl) (h₀.line_after [] ms (List.nil_sublist _))
  have hrow : (opened p).InOrder ms → d.row = started := fun hms =>
    eq_filter_awaits (fun _ => mem_row_iff) (h₀.row_after [] ms hms (List.nil_sublist _))
  refine ⟨h.held, h.holders, h.alone, fun hs w => h.held_of_awaits hs, h.settles.2, hline, hrow,
    h₀.inOrder_patiently ms rfl, fun m w hturn hw hclaim hwait hheld =>
      hline ▸ h.taken_by_first hturn hw hclaim hwait hheld, ?_, fun v a rest hs hw hv => h.hand_over hs hw hv,
    fun w => ⟨rfl, rfl, h.line_abort w, ?_⟩⟩
  · intro w hw ho
    obtain ⟨rest, hwoken⟩ := List.head?_eq_some_iff.mp hw
    refine ⟨h.resume_first ho hwoken, ?_, fun hms => ?_⟩
    · rw [← hline, Desk.line, hwoken]
      rfl
    · rw [← hrow hms, row, h.waiting_of_open ho, hwoken]
      rfl
  · intro ms' hms'
    obtain ⟨hnot, hheld⟩ := (h.abort w).away (h.notMem_abort w) hms'
    exact ⟨Bool.eq_false_iff.mpr fun hw => hnot (awaits_iff.mp hw), hheld⟩

/-- Between waking and turn one can be overtaken: by one who starts to wait, when the slot has been claimed
meanwhile, and by one who was woken later, when it has been given back meanwhile. Everyone who was woken has
had its turn in the end, and the later one gets the slot. -/
theorem earlier_waiter_overtaken :
    (let ms : List (Move String) :=
      [.claim "h", .wait "a", .release "h", .claim "d", .wait "e", .resume "a"]
    let d := (opened false).after ms
    d.woken = [] ∧ (ms.flatMap Move.starts).dedup.filter (d.awaits ·) = ["a", "e"] ∧
      (d.release "d").settle.holders = ["e"] ∧ (d.release "d").settle.slot.waiting = ["a"]) ∧
    (let ms : List (Move String) :=
      [.claim "h", .wait "a", .wait "b", .release "h", .claim "d", .resume "a", .release "d",
        .resume "b", .resume "a"]
    let d := (opened false).after ms
    d.woken = [] ∧ (ms.flatMap Move.starts).dedup = ["a", "b"] ∧ d.holders = ["b"] ∧
      d.slot.waiting = ["a"]) := by
  decide

end ReactiveRules.Desk
