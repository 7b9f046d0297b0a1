/-! The eight compass directions a turtle can face, clockwise from north, an eighth of a turn apart.
Heights grow northwards, so a step north raises `y`. -/

namespace TurtleArt

inductive Direction
  | north | northEast | east | southEast | south | southWest | west | northWest
  deriving DecidableEq, Repr

namespace Direction

def all : List Direction :=
  [north, northEast, east, southEast, south, southWest, west, northWest]

def right : Direction → Direction
  | north => northEast
  | northEast => east
  | east => southEast
  | southEast => south
  | south => southWest
  | southWest => west
  | west => northWest
  | northWest => north

def left : Direction → Direction
  | north => northWest
  | northWest => west
  | west => southWest
  | southWest => south
  | south => southEast
  | southEast => east
  | east => northEast
  | northEast => north

def step : Direction → Int × Int
  | north => (0, 1)
  | northEast => (1, 1)
  | east => (1, 0)
  | southEast => (1, -1)
  | south => (0, -1)
  | southWest => (-1, -1)
  | west => (-1, 0)
  | northWest => (-1, 1)

def arrow : Direction → Char
  | north => '↑'
  | northEast => '↗'
  | east => '→'
  | southEast => '↘'
  | south => '↓'
  | southWest => '↙'
  | west => '←'
  | northWest => '↖'

@[simp] theorem left_right (d : Direction) : d.left.right = d := by cases d <;> rfl

@[simp] theorem right_left (d : Direction) : d.right.left = d := by cases d <;> rfl

end Direction
end TurtleArt
