import TurtleArt.Command
import TurtleArt.Direction

/-! The names under which directions and commands are written. -/

namespace TurtleArt

def Direction.name : Direction → String
  | north => "North"
  | northEast => "NorthEast"
  | east => "East"
  | southEast => "SouthEast"
  | south => "South"
  | southWest => "SouthWest"
  | west => "West"
  | northWest => "NorthWest"

namespace Command

def all : List Command :=
  [drawLeaf, drawLine, turnLeft, turnRight, pushBranch, popBranch]

def name : Command → String
  | drawLeaf => "draw_leaf"
  | drawLine => "draw_line"
  | turnLeft => "turn_left"
  | turnRight => "turn_right"
  | pushBranch => "push_branch"
  | popBranch => "pop_branch"

end Command
end TurtleArt
