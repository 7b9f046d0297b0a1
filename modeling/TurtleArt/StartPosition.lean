import TurtleArt.Position

/-! Where a turtle starts, given the side of its canvas. -/

namespace TurtleArt

inductive StartPosition
  | middleBottom
  | central
  | bottomRight
  | fixed (x y : Int32)
  deriving DecidableEq

namespace StartPosition

def farthest : Nat := 0x7fffffff

/-- A length as a coordinate. Lengths beyond the greatest coordinate stop there. -/
def coordinate (n : Nat) : Int32 :=
  .ofNat (min n farthest)

def origin (side : Nat) : StartPosition → Position
  | middleBottom => ⟨coordinate (side / 2), 0⟩
  | central => ⟨coordinate (side / 2), coordinate (side / 2)⟩
  | bottomRight => ⟨coordinate side - 1, 0⟩
  | fixed x y => ⟨x, y⟩

end StartPosition
end TurtleArt
