import ReactiveRules.Graph.Basic
import ReactiveRules.Rule.Basic
import ReactiveRules.Rule.Slot

/-!
# `Rule/Registry.lean` — which rules there are

A registry maps every id to the instance that is in force, and remembers which nodes each rule
observes. Registering an id again makes a new instance and retires the old one; the nodes stay
observed, because an observer knows its rule by the id. Retired instances are kept, since runs may
still be going on for them.
-/

set_option autoImplicit false

namespace ReactiveRules

/-- An instance with the slot that its runs claim; runs are known by their numbers. -/
structure Instance extends Rule where
  slot : Slot Nat
  deriving Inhabited

namespace Instance

def ofDefinition (d : Definition) : Instance :=
  { toRule := Rule.ofDefinition d, slot := { parallel := d.parallel } }

/-- The number of runs that hold the slot. -/
def runners (i : Instance) : Nat := i.slot.held

def mapRule (f : Rule → Rule) (i : Instance) : Instance := { i with toRule := f i.toRule }

end Instance

/-- The rules of an engine. -/
structure Registry where
  /-- All instances ever made, by their numbers. -/
  instances : List Instance := []
  /-- The instance in force for each id. -/
  registered : List (String × Nat) := []
  /-- Which rule observes which node. -/
  observed : List (String × String) := []
  /-- The graph that rules observe, if there is one. -/
  host : Option (Graph Unit) := none
  deriving Inhabited

namespace Registry

def number? (r : Registry) (id : String) : Option Nat :=
  (r.registered.find? (·.1 == id)).map (·.2)

def find? (r : Registry) (id : String) : Option Instance :=
  (r.number? id).bind fun n => r.instances[n]?

def contains (r : Registry) (id : String) : Bool := (r.number? id).isSome

def size (r : Registry) : Nat := r.registered.length

def modify (r : Registry) (n : Nat) (f : Instance → Instance) : Registry :=
  { r with instances := r.instances.modify n f }

/-- Adds an instance without putting it in force; gives its number. -/
def add (r : Registry) (d : Definition) : Registry × Nat :=
  ({ r with instances := r.instances ++ [Instance.ofDefinition d] }, r.instances.length)

/-- Puts an instance in force. -/
def enforce (r : Registry) (id : String) (n : Nat) : Registry :=
  { r with registered := r.registered.filter (·.1 != id) ++ [(id, n)] }

def retire (r : Registry) (n : Nat) : Registry := r.modify n (.mapRule Rule.retire)

/-- A successful registration: the new instance, and the one it replaced. -/
structure Registered where
  number : Nat
  replaced : Option Nat
  deriving DecidableEq, Repr, Inhabited

/-- Registers a definition in place of the one with its id. -/
def register (r : Registry) (d : Definition) : Registry × Except RuleError Registered :=
  match d.check with
  | .error e => (r, .error e)
  | .ok () =>
    let replaced := r.number? d.id
    let (r, n) := r.add d
    let r := r.enforce d.id n
    (match replaced with
      | some old => r.retire old
      | none => r, .ok ⟨n, replaced⟩)

/-- The nodes that a rule observes, in order. -/
def observedNodes (r : Registry) (id : String) : List String :=
  ((r.observed.filter (·.1 == id)).map (·.2)).mergeSort (· ≤ ·)

/-- Detaches the observers of a rule from nodes; gives their number. -/
def detachAll (g : Graph Unit) (id : String) : List String → Graph Unit × Nat
  | [] => (g, 0)
  | node :: rest =>
    let (g, n) := g.detach node id
    let (g, m) := detachAll g id rest
    (g, n + m)

/-- A successful removal: the instance, and how many observers were detached. -/
structure Removed where
  number : Nat
  detached : Nat
  deriving DecidableEq, Repr, Inhabited

/-- Removes a rule and detaches it from all nodes. -/
def deregister (r : Registry) (id : String) : Registry × Except RuleError Removed :=
  match r.number? id with
  | none => (r, .error (.unknownRule id))
  | some n =>
    let nodes := r.observedNodes id
    let r := { r with
      registered := r.registered.filter (·.1 != id)
      observed := r.observed.filter (·.1 != id) }
    let r := r.retire n
    match r.host with
    | none => (r, .ok ⟨n, 0⟩)
    | some g =>
      let (g, detached) := detachAll g id nodes
      ({ r with host := some g }, .ok ⟨n, detached⟩)

/-- Attaches a rule to both aspects of a node. -/
def observe (r : Registry) (node id : String) : Registry × Except RuleError Unit :=
  if !r.contains id then (r, .error (.unknownRule id))
  else
    match r.host with
    | none => (r, .error (.noHost node id))
    | some g =>
      let g := (g.attach node .attribute ⟨id, ()⟩).attach node .property ⟨id, ()⟩
      let observed :=
        if r.observed.contains (id, node) then r.observed else r.observed ++ [(id, node)]
      ({ r with host := some g, observed }, .ok ())

/-- Is the first rule listed before the second? Priority counts first, then the id. -/
def listedBefore (a b : Instance) : Bool :=
  let (p, q) := (a.definition.priority.toInt, b.definition.priority.toInt)
  p < q || (p == q && a.id ≤ b.id)

/-- The instances in force, by priority and id. -/
def list (r : Registry) : List Instance :=
  (r.registered.filterMap fun (_, n) => r.instances[n]?).mergeSort listedBefore

/-- Removes the expired facts of the rules in force. -/
def sweep (r : Registry) (now : Nat) : Registry :=
  r.registered.foldl (fun r (_, n) => r.modify n (.mapRule (·.sweep now))) r

/-- The number of facts that sweeping removes. -/
def sweepCount (r : Registry) (now : Nat) : Nat :=
  r.list.foldl (fun n i => n + i.facts.sweepCount now) 0

end Registry

end ReactiveRules
