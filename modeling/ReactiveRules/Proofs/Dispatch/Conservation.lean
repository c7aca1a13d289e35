import ReactiveRules.Proofs.Dispatch.Effects

/-!
# `Proofs/Dispatch/Conservation.lean` — nothing is lost, and nothing is handed out twice

**What was accepted is what was handed out and what is still in the queue**, however the moves follow
one another; and whatever is handed out was the entry to be served first. Both come from what one move
deals (`DispatchQueue.Deals`).
-/

set_option autoImplicit false

namespace ReactiveRules

namespace DispatchQueue

variable {α ω : Type} {q q' : DispatchQueue α ω} {accepted : List (α × Int)} {handed : List α}

/-- The entries are among the offers that were accepted: the place of an entry in the order is the
number of the offer. -/
structure Enrolled (q : DispatchQueue α ω) (accepted : List (α × Int)) : Prop where
  ordered : q.Ordered
  next : q.nextOrder = accepted.length
  offer : ∀ e ∈ q.entries, accepted[e.order]? = some (e.payload, e.priority)

theorem Enrolled.lt {e : QueueEntry α} (h : q.Enrolled accepted) (he : e ∈ q.entries) :
    e.order < q.nextOrder := by
  rw [h.next]
  exact (List.getElem?_eq_some_iff.mp (h.offer e he)).1

/-- Dealing keeps account of the offers. -/
theorem Enrolled.deals {a : List (α × Int)} {b : List α} (h : q.Enrolled accepted)
    (hd : q.Deals q' a b) : q'.Enrolled (accepted ++ a) := by
  cases hd with
  | rest he hn =>
    refine ⟨?_, ?_, ?_⟩
    · rw [Ordered, he]; exact h.ordered
    · rw [hn, List.append_nil]; exact h.next
    · rw [he, List.append_nil]; exact h.offer
  | accepts p priority he hn =>
    refine ⟨?_, ?_, fun e hmem => ?_⟩
    · rw [Ordered, he, List.pairwise_append]
      refine ⟨h.ordered, List.pairwise_singleton _ _, fun e hin f hf => ?_⟩
      rw [List.mem_singleton.mp hf]
      exact h.lt hin
    · rw [hn, h.next, List.length_append, List.length_singleton]
    · rw [he, List.mem_append, List.mem_singleton] at hmem
      rcases hmem with hin | rfl
      · rw [List.getElem?_append_left (h.next ▸ h.lt hin)]
        exact h.offer e hin
      · show (accepted ++ [(p, priority)])[q.nextOrder]? = some (p, priority)
        rw [h.next]
        exact List.getElem?_concat_length
  | serves hl he hn =>
    refine ⟨?_, ?_, fun e hmem => ?_⟩
    · rw [Ordered, he]; exact h.ordered.filter _
    · rw [hn, List.append_nil]; exact h.next
    · rw [he] at hmem
      rw [List.append_nil]
      exact h.offer e (List.mem_of_mem_filter hmem)

/-- Dealing moves payloads from the offers to the queue and from the queue to those who get them. -/
theorem Enrolled.perm {a : List (α × Int)} {b : List α} (h : q.Enrolled accepted)
    (hd : q.Deals q' a b)
    (hp : (accepted.map (·.1)).Perm (handed ++ q.entries.map (·.payload))) :
    ((accepted ++ a).map (·.1)).Perm ((handed ++ b) ++ q'.entries.map (·.payload)) := by
  cases hd with
  | rest he hn =>
    rw [he, List.append_nil, List.append_nil]
    exact hp
  | accepts p priority he hn =>
    rw [he, List.map_append, List.map_append, List.append_nil, ← List.append_assoc]
    exact hp.append_right [p]
  | @serves e hl he hn =>
    have hout : (q.entries.map (·.payload)).Perm (e.payload :: q'.entries.map (·.payload)) := by
      rw [he]
      exact (h.ordered.perm_serve (least?_mem hl)).map _
    have hmoved := hp.trans (hout.append_left handed)
    rw [List.append_cons] at hmoved
    rw [List.append_nil]
    exact hmoved

/-- What is handed out was to be served first. -/
theorem Enrolled.first {a : List (α × Int)} {b : List α} (h : q.Enrolled accepted)
    (hd : q.Deals q' a b) : b = [] ∨ ∃ e ∈ q.entries, b = [e.payload] ∧
      (∀ f ∈ q.entries, f = e ∨ e.priority < f.priority ∨
        e.priority = f.priority ∧ e.order < f.order) ∧
      q.entries.Perm (e :: q'.entries) := by
  cases hd with
  | rest he hn => exact .inl rfl
  | accepts p priority he hn => exact .inl rfl
  | @serves e hl he hn =>
    refine .inr ⟨e, least?_mem hl, rfl, fun f hf => ?_, ?_⟩
    · exact (h.ordered.least hl f hf).imp_right QueueEntry.before_iff.mp
    · rw [he]
      exact h.ordered.perm_serve (least?_mem hl)

end DispatchQueue

namespace Station.Ledger

variable {α : Type} [BEq α]

/-- What holds of a station and what has happened at it: the line is in the order in which its members
last began to wait, and the offers that were accepted are accounted for. -/
structure Balanced (L : Ledger α) : Prop where
  sound : L.station.Sound
  fed : L.station.queue.Fed
  lined : L.station.queue.line = L.joined.dedup.filter L.station.pending
  enrolled : L.station.queue.Enrolled L.accepted
  perm : (L.accepted.map (·.1)).Perm (L.handed ++ L.station.queue.entries.map (·.payload))

omit [BEq α] in
theorem balanced_ofWindow (window : Nat) : (Ledger.ofWindow window : Ledger α).Balanced where
  sound := ⟨List.nodup_nil, fun n => by simp [ofWindow, Station.ofWindow, DispatchQueue.line, pending],
    fun n => by simp [ofWindow, Station.ofWindow, pending]⟩
  fed := fun h => absurd rfl h
  lined := rfl
  enrolled := ⟨List.Pairwise.nil, rfl, fun _ he => absurd he List.not_mem_nil⟩
  perm := List.Perm.refl _

theorem Balanced.play {L : Ledger α} (h : L.Balanced) (m : Move α) : (L.play m).Balanced :=
  have he := effect_play h.sound m
  { sound := h.sound.effect he
    fed := he.fed h.fed
    lined := he.queues.line_eq h.sound.nodup h.lined
    enrolled := h.enrolled.deals he.deals
    perm := h.enrolled.perm he.deals h.perm }

theorem balanced (window : Nat) (ms : List (Move α)) : ((ofWindow window).after ms).Balanced :=
  Ledger.induction (balanced_ofWindow window) (fun _ m h => h.play m) ms

/-- **Conservation.** After any moves the accepted offers are those that were handed out and those still
in the queue; every entry of the queue is an offer that was accepted, known by its number; and the next
move hands out nothing or takes out the entry of the lowest priority, the oldest among equals. -/
theorem accepted_handed_or_queued (window : Nat) (ms : List (Move α)) :
    let L := (ofWindow window : Ledger α).after ms
    let q := L.station.queue
    (L.accepted.map (·.1)).Perm (L.handed ++ q.entries.map (·.payload)) ∧
    q.size + L.handed.length = L.accepted.length ∧
    (∀ e ∈ q.entries, L.accepted[e.order]? = some (e.payload, e.priority)) ∧
    ∀ m, L.station.hands m = [] ∨ ∃ e ∈ q.entries, L.station.hands m = [e.payload] ∧
      (∀ f ∈ q.entries, f = e ∨ e.priority < f.priority ∨
        e.priority = f.priority ∧ e.order < f.order) ∧
      q.entries.Perm (e :: (L.station.play m).queue.entries) := by
  intro L q
  have h : L.Balanced := balanced window ms
  refine ⟨h.perm, ?_, h.enrolled.offer, fun m => ?_⟩
  · have hlen := h.perm.length_eq
    simp only [List.length_map, List.length_append] at hlen
    show L.station.queue.entries.length + L.handed.length = L.accepted.length
    omega
  · exact h.enrolled.first (effect_play h.sound m).deals

end Station.Ledger

end ReactiveRules
