import TurtleArt.Turtle.Basic

/-! Driving a turtle by hand: single actions, each of which may fail without ending the run. -/

namespace TurtleArt.Turtle

inductive Action
  | execute (c : Command)
  | draw
  | forward
  | left
  | right
  | push
  | pop
  deriving DecidableEq, Repr

variable {side : Nat}

def act (t : Turtle side) : Action → Except (Failure side) (Turtle side)
  | .execute c => t.execute c
  | .draw => t.draw
  | .forward => t.forward
  | .left => .ok t.left
  | .right => .ok t.right
  | .push => .ok t.push
  | .pop => t.pop

/-- The turtle as an action leaves it, and what went wrong if it failed. -/
def attempt (t : Turtle side) (a : Action) : Turtle side × Option Fault :=
  match t.act a with
  | .ok t => (t, none)
  | .error failure => (failure.turtle, some failure.cause)

def trial (t : Turtle side) : List Action → List (Turtle side × Option Fault)
  | [] => []
  | a :: actions =>
    let outcome := t.attempt a
    outcome :: outcome.1.trial actions

end TurtleArt.Turtle
