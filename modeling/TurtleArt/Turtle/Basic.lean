import TurtleArt.Canvas.Basic
import TurtleArt.Command
import TurtleArt.Turtle.Pose

/-! A turtle on a canvas. It draws the arrow of its heading in the cell where it stands, keeps a
stack of poses to come back to, and counts the commands it has carried out. The cell it starts
from stays empty until a command draws there.

An operation that fails says why, and also how it left the turtle: whatever it did before the
failing step stays done. -/

namespace TurtleArt

structure Turtle (side : Nat) where
  pose : Pose
  saved : List Pose
  executed : Nat
  canvas : Canvas side

namespace Turtle

structure Failure (side : Nat) where
  turtle : Turtle side
  cause : Fault

variable {side : Nat}

def place (canvas : Canvas side) (position : Position) (heading : Direction) : Turtle side :=
  { pose := ⟨position, heading⟩, saved := [], executed := 0, canvas }

def depth (t : Turtle side) : Nat :=
  t.saved.length

def draw (t : Turtle side) : Except (Failure side) (Turtle side) :=
  match t.canvas.put t.pose.heading.arrow t.pose.position with
  | .ok canvas => .ok { t with canvas }
  | .error cause => .error ⟨t, cause⟩

def forward (t : Turtle side) : Except (Failure side) (Turtle side) :=
  { t with pose := t.pose.advance }.draw

def left (t : Turtle side) : Turtle side :=
  { t with pose := t.pose.left }

def right (t : Turtle side) : Turtle side :=
  { t with pose := t.pose.right }

def push (t : Turtle side) : Turtle side :=
  { t with saved := t.pose :: t.saved }

def pop (t : Turtle side) : Except (Failure side) (Turtle side) :=
  match t.saved with
  | pose :: saved => .ok { t with pose, saved }
  | [] => .error ⟨t, .stackUnderflow t.executed⟩

def perform (t : Turtle side) : Command → Except (Failure side) (Turtle side)
  | .drawLeaf | .drawLine => t.forward
  | .turnLeft => .ok t.left.left
  | .turnRight => .ok t.right.right
  | .pushBranch => do
    let t ← t.draw
    return t.push.left
  | .popBranch => do
    let t ← t.draw
    let t ← t.pop
    return t.right

/-- Performs a command and counts it. A command that fails is not counted. -/
def execute (t : Turtle side) (c : Command) : Except (Failure side) (Turtle side) := do
  let t ← t.perform c
  return { t with executed := t.executed + 1 }

def run (t : Turtle side) (commands : List Command) : Except (Failure side) (Turtle side) :=
  commands.foldlM execute t

end Turtle
end TurtleArt
