import ReactiveRules.Engine.Crew
import ReactiveRules.Engine.Scripts

/-!
# `Engine/Schedule.lean` — turns and time

`turn` gives a turn to any job that can take one; every order of turns is a possible course of an
engine. `settle` gives them from the front until nobody can take one, and `advance` lets time pass
from one timer to the next, settling in between.
-/

set_option autoImplicit false

namespace ReactiveRules.Engine

/-! ## Turns -/

def perform (E : Engine) (j : Job) (second : Bool) : Engine :=
  match j with
  | .run r => E.performRun r second
  | .script e => E.performScript e
  | .write k => E.performWrite k
  | .worker c w => E.performWorker c w second
  | .stop k => E.performStop k

/-- Gives a turn to a job, if it can take one. -/
def turn (E : Engine) (j : Job) (second : Bool) : Engine :=
  if E.ready.contains j then { E with ready := E.ready.erase j }.perform j second else E

def next (E : Engine) : Engine :=
  match E.ready with
  | [] => E
  | j :: _ => E.turn j false

def settleIn : Nat → Engine → Engine
  | 0, E => E
  | n + 1, E => if E.ready.isEmpty then E else E.next.settleIn n

/-- More turns than a script takes that does not set off itself. -/
def manyTurns : Nat := 100000

/-- Gives turns until nobody can take one. -/
def settle (E : Engine) : Engine := E.settleIn manyTurns

/-! ## Time -/

/-- All times at which something goes on by itself. -/
def dues (E : Engine) : List Nat := E.runs.filterMap Run.due? ++ E.crews.filterMap (·.tick)

def nextDue? (E : Engine) (t : Nat) : Option Nat := (E.dues.filter (t < ·)).min?

/-- Is it time for a run to go on? -/
def isDue (E : Engine) (r : Nat) : Bool :=
  match (E.runAt r).due? with
  | some due => due ≤ E.now
  | none => false

/-- It is `t` now: whoever has waited for it can take a turn. -/
def strike (E : Engine) (t : Nat) : Engine :=
  let E := { E with now := t }
  let E := (List.range E.crews.length).foldl tickCrew E
  ((List.range E.runs.length).filter E.isDue).foldl (fun E r => E.wake (.run r)) E

/-- Lets time pass from `t` to `target`. -/
def passTime (E : Engine) (t target : Nat) : Engine :=
  match E.nextDue? t with
  | none => { E with now := target }
  | some due =>
    if _ : t < due ∧ due ≤ target then (E.strike due).settle.passTime due target
    else { E with now := target }
termination_by target - t

def advance (E : Engine) (ms : Nat) : Engine := E.passTime E.now (E.now + ms)

def hasFinished (E : Engine) (task : Nat) : Bool := E.finished.any (·.1 == task)

/-- Lets time pass from timer to timer, up to `n` of them, until a task has ended. -/
def awaitIn : Nat → Nat → Engine → Engine
  | 0, _, E => E
  | n + 1, task, E =>
    if E.hasFinished task then E
    else
      match E.nextDue? E.now with
      | none => E
      | some due => (E.strike due).settle.awaitIn n task

/-- Lets time pass until a task has ended, or nothing more can happen. -/
def await (E : Engine) (task : Nat) : Engine := E.settle.awaitIn manyTurns task

end ReactiveRules.Engine
