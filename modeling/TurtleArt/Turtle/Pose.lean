import TurtleArt.Position

/-! Where a turtle stands and which way it faces. -/

namespace TurtleArt

@[ext]
structure Pose where
  position : Position
  heading : Direction
  deriving DecidableEq, Repr

namespace Pose

def advance (s : Pose) : Pose :=
  { s with position := s.position.advance s.heading }

def left (s : Pose) : Pose :=
  { s with heading := s.heading.left }

def right (s : Pose) : Pose :=
  { s with heading := s.heading.right }

end Pose
end TurtleArt
