import ReactiveRules.Broadcast.Event
import ReactiveRules.Decimal.Power

/-!
# `Broadcast/Channel.lean` — one sender, many receivers

Every receiver gets the events sent after it joined, in order. The channel keeps the latest events
up to its capacity, a power of two; a receiver that has not read an event before it is dropped is
told once that it lags and goes on with the oldest event kept. A filtered receiver consumes what
does not pass its filter.

There are two ways to read. `read?` never waits: it answers with an event or with nothing, and a
lagging receiver gets nothing that time. `receive` would wait: it passes over the lag, and tells
apart that nothing has come yet and that nothing will come any more.
-/

set_option autoImplicit false

namespace ReactiveRules

/-- An event on its way: who sent it, and what it belongs to. -/
structure Message (κ : Type) where
  event : RuleEvent
  source : String
  correlation : Option κ
  deriving Inhabited

/-- Which events a receiver wants. -/
inductive EventFilter where
  | all
  | failures
  | ofRule (rule : String)
  | ofType (name : String)
  /-- Any choice of a receiver's own. -/
  | matching (wanted : RuleEvent → Bool)
  deriving Inhabited

def EventFilter.passes : EventFilter → RuleEvent → Bool
  | .all, _ => true
  | .failures, e => e.isFailure
  | .ofRule rule, e => e.rule == rule
  | .ofType name, e => e.typeName == name
  | .matching wanted, e => wanted e

/-- The place of a receiver in the stream: the number of the next event for it. -/
structure Receiver where
  next : Nat
  filter : EventFilter
  deriving Inhabited

structure Channel (κ : Type) where
  capacity : Nat
  /-- The number of events sent so far. -/
  sent : Nat := 0
  /-- The latest events, oldest first, at most `capacity` of them. -/
  kept : List (Message κ) := []
  receivers : Nat := 0
  closed : Bool := false
  deriving Inhabited

/-- What a receiver meets when it looks at the channel. -/
inductive Glance (κ : Type) where
  | message (m : Message κ)
  | lagged
  | nothing
  | closed

/-- What a receiver that is ready to wait gets. -/
inductive Received (κ : Type) where
  | message (m : Message κ)
  | pending
  | closed

namespace Channel

variable {κ : Type}

/-- The least power of two that is not less than `n`. -/
def roundUp (n : Nat) : Nat := if n ≤ 1 then 1 else Decimal.twoTo ((n - 1).log2 + 1)

def ofCapacity (n : Nat) : Channel κ := { capacity := roundUp n }

def oldest (c : Channel κ) : Nat := c.sent - c.kept.length

/-- Sends an event. Without a receiver it is lost; the answer tells whether there was one. -/
def send (c : Channel κ) (m : Message κ) : Channel κ × Bool :=
  if c.receivers == 0 then (c, false)
  else
    let kept := c.kept.drop (c.kept.length + 1 - c.capacity) ++ [m]
    ({ c with sent := c.sent + 1, kept }, true)

def join (c : Channel κ) (filter : EventFilter) : Channel κ × Receiver :=
  ({ c with receivers := c.receivers + 1 }, ⟨c.sent, filter⟩)

def leave (c : Channel κ) : Channel κ := { c with receivers := c.receivers - 1 }

/-- Ends the stream; what is kept can still be read. -/
def close (c : Channel κ) : Channel κ := { c with closed := true }

/-- What the receiver meets, and its place afterwards. -/
def glance (c : Channel κ) (r : Receiver) : Glance κ × Receiver :=
  if r.next < c.oldest then (.lagged, { r with next := c.oldest })
  else
    match c.kept[r.next - c.oldest]? with
    | some m => (.message m, { r with next := r.next + 1 })
    | none => (if c.closed then .closed else .nothing, r)

/-- Reads without waiting. -/
def readFrom (c : Channel κ) : Nat → Receiver → Option (Message κ) × Receiver
  | 0, r => (none, r)
  | fuel + 1, r =>
    match c.glance r with
    | (.message m, r) => if r.filter.passes m.event then (some m, r) else c.readFrom fuel r
    | (_, r) => (none, r)

/-- Reads ready to wait: passes over a lag. -/
def receiveFrom (c : Channel κ) : Nat → Receiver → Received κ × Receiver
  | 0, r => (.pending, r)
  | fuel + 1, r =>
    match c.glance r with
    | (.message m, r) => if r.filter.passes m.event then (.message m, r) else c.receiveFrom fuel r
    | (.lagged, r) => c.receiveFrom fuel r
    | (.nothing, r) => (.pending, r)
    | (.closed, r) => (.closed, r)

/-- The steps that reading can take: a lag, every event kept, and the end. -/
def patience (c : Channel κ) : Nat := c.kept.length + 2

def read? (c : Channel κ) (r : Receiver) : Option (Message κ) × Receiver := c.readFrom c.patience r

/-- All events that the receiver gets at once, up to `n` of them. -/
def drainIn (c : Channel κ) : Nat → Receiver → List (Message κ) × Receiver
  | 0, r => ([], r)
  | n + 1, r =>
    match c.read? r with
    | (none, r) => ([], r)
    | (some m, r) =>
      let (rest, r) := c.drainIn n r
      (m :: rest, r)

def drain (c : Channel κ) (r : Receiver) : List (Message κ) × Receiver :=
  c.drainIn (c.kept.length + 1) r

def receive (c : Channel κ) (r : Receiver) : Received κ × Receiver := c.receiveFrom c.patience r

end Channel

end ReactiveRules
