/-! What a symbol can tell the turtle to do. A leaf and a line are both a step ahead that is drawn in
the cell reached. A turn is a quarter, a turn at a branch an eighth. -/

namespace TurtleArt

inductive Command
  | drawLeaf
  | drawLine
  | turnLeft
  | turnRight
  /-- Draw here, save the pose, bear left by an eighth of a turn. -/
  | pushBranch
  /-- Draw here, return to the saved pose, bear right by an eighth of a turn. -/
  | popBranch
  deriving DecidableEq, Repr

namespace Command

def isDrawing : Command → Bool
  | drawLeaf | drawLine => true
  | _ => false

end Command
end TurtleArt
