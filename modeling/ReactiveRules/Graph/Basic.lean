import ReactiveRules.Trigger

/-!
# `Graph/Basic.lean` — nodes and those who watch them

A graph stores the latest value of every attribute and property of its nodes, and for each node the
observers of its attributes and those of its properties. An observer has a key; attaching another
one with that key takes the first one's place, at the end of the list. A write names the observers
that are to be notified, in order: those attached at that moment.
-/

set_option autoImplicit false

namespace ReactiveRules

/-- An observer by its key, and what it carries. -/
structure Observer (ο : Type) where
  key : String
  content : ο
  deriving Repr, Inhabited

/-- A node: latest values by name, and observers in the order of their latest attachment. -/
structure Vertex (ο : Type) where
  attributes : List (String × Json) := []
  properties : List (String × Json) := []
  attributeObservers : List (Observer ο) := []
  propertyObservers : List (Observer ο) := []
  deriving Inhabited

namespace Vertex

variable {ο : Type}

def values (v : Vertex ο) : Aspect → List (String × Json)
  | .attribute => v.attributes
  | .property => v.properties

def observers (v : Vertex ο) : Aspect → List (Observer ο)
  | .attribute => v.attributeObservers
  | .property => v.propertyObservers

def withValues (v : Vertex ο) (a : Aspect) (xs : List (String × Json)) : Vertex ο :=
  match a with
  | .attribute => { v with attributes := xs }
  | .property => { v with properties := xs }

def withObservers (v : Vertex ο) (a : Aspect) (os : List (Observer ο)) : Vertex ο :=
  match a with
  | .attribute => { v with attributeObservers := os }
  | .property => { v with propertyObservers := os }

/-- Attaches an observer, in place of one with its key. -/
def attach (v : Vertex ο) (a : Aspect) (o : Observer ο) : Vertex ο :=
  v.withObservers a ((v.observers a).filter (·.key != o.key) ++ [o])

/-- Detaches the observers with a key from an aspect. -/
def detach (v : Vertex ο) (a : Aspect) (key : String) : Vertex ο :=
  v.withObservers a ((v.observers a).filter (·.key != key))

def store (v : Vertex ο) (a : Aspect) (name : String) (value : Json) : Vertex ο :=
  v.withValues a ((v.values a).filter (·.1 != name) ++ [(name, value)])

def observerCount (v : Vertex ο) : Nat := v.attributeObservers.length + v.propertyObservers.length

end Vertex

/-- The nodes that anything is known of. -/
structure Graph (ο : Type) where
  vertices : List (String × Vertex ο) := []
  deriving Inhabited

namespace Graph

variable {ο : Type}

/-- The vertex of a node; a node nothing is known of has no values and no observers. -/
def vertex (g : Graph ο) (node : String) : Vertex ο :=
  ((g.vertices.find? (·.1 == node)).map (·.2)).getD {}

def setVertex (g : Graph ο) (node : String) (v : Vertex ο) : Graph ο :=
  ⟨g.vertices.filter (·.1 != node) ++ [(node, v)]⟩

def update (g : Graph ο) (node : String) (f : Vertex ο → Vertex ο) : Graph ο :=
  g.setVertex node (f (g.vertex node))

/-- Attaches an observer to an aspect of a node. -/
def attach (g : Graph ο) (node : String) (a : Aspect) (o : Observer ο) : Graph ο :=
  g.update node (·.attach a o)

/-- Detaches the observers with a key from both aspects of a node; gives their number. -/
def detach (g : Graph ο) (node : String) (key : String) : Graph ο × Nat :=
  let v := g.vertex node
  let w := (v.detach .attribute key).detach .property key
  (g.setVertex node w, v.observerCount - w.observerCount)

/-- Writes a value; gives the observers to notify, in order. -/
def write (g : Graph ο) (node : String) (a : Aspect) (name : String) (value : Json) :
    Graph ο × List (Observer ο) :=
  (g.update node (·.store a name value), (g.vertex node).observers a)

/-- The latest value written. -/
def read? (g : Graph ο) (node : String) (a : Aspect) (name : String) : Option Json :=
  (((g.vertex node).values a).find? (·.1 == name)).map (·.2)

def observerCount (g : Graph ο) (node : String) : Nat := (g.vertex node).observerCount

end Graph

end ReactiveRules
