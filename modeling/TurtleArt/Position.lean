import TurtleArt.Direction

/-! Cells by their addresses, which are pairs of 32 bit integers. A path may wander anywhere; only a
canvas has edges. A step beyond the greatest coordinate wraps around to the least. -/

namespace TurtleArt

@[ext]
structure Position where
  x : Int32
  y : Int32
  deriving DecidableEq, Repr

def Position.advance (p : Position) (d : Direction) : Position :=
  ⟨p.x + .ofInt d.step.1, p.y + .ofInt d.step.2⟩

end TurtleArt
