import ReactiveRules.Script.Attend

/-!
# `Command.lean` — commands that scripts can call

A command is bound to a name; binding another one to that name takes its place, and a script keeps
calling the commands that were bound when it started. What a command does may depend on how often
it has been called, so a table counts the calls of each command it was ever given.
-/

set_option autoImplicit false

namespace ReactiveRules

/-- A command that needs nothing but its arguments. -/
inductive Command where
  | fixed (value : Json)
  | echo
  | count
  | fail (message : String)
  /-- Sets the cancel flag and answers. -/
  | cancel (answer : Except String Json)
  | panic (message : String)
  deriving Inhabited

/-- What a command does on its call number `calls`. -/
def Command.respond (calls : Nat) (arguments : List Json) : Command → Response
  | .fixed v => .answer false (.ok v)
  | .echo => .answer false (.ok (.arr arguments))
  | .count => .answer false (.ok (.int calls))
  | .fail m => .answer false (.error m)
  | .cancel a => .answer true a
  | .panic m => .panic m

/-- Commands of a type `κ`: those that were ever bound, with the number of their calls, and which
of them each name stands for. -/
structure CommandTable (κ : Type) where
  commands : List (κ × Nat) := []
  names : List (String × Nat) := []
  deriving Inhabited

namespace CommandTable

variable {κ : Type}

def bind (t : CommandTable κ) (name : String) (c : κ) : CommandTable κ :=
  { commands := t.commands ++ [(c, 0)]
    names := t.names.filter (·.1 != name) ++ [(name, t.commands.length)] }

def bound (t : CommandTable κ) (name : String) : Bool := t.names.any (·.1 == name)

def unbind (t : CommandTable κ) (name : String) : CommandTable κ :=
  { t with names := t.names.filter (·.1 != name) }

def size (t : CommandTable κ) : Nat := t.names.length

def numberIn (names : List (String × Nat)) (name : String) : Option Nat :=
  (names.find? (·.1 == name)).map (·.2)

/-- Calls a command by its number: the table that has counted the call, the command, and which call
of it this is. -/
def call? (t : CommandTable κ) (number : Nat) : Option (CommandTable κ × κ × Nat) :=
  (t.commands[number]?).map fun (c, calls) =>
    ({ t with commands := t.commands.set number (c, calls + 1) }, c, calls + 1)

/-- The table as the surroundings of a script. -/
def respond (t : CommandTable Command) (name : String) (arguments : List Json) :
    CommandTable Command × Response :=
  match (numberIn t.names name).bind t.call? with
  | some (t, c, calls) => (t, c.respond calls arguments)
  | none => (t, .answer false (.error ("no command " ++ name)))

end CommandTable

end ReactiveRules
