import TurtleArt.Direction

/-! Directions compared with each other: those of rows and columns, those next to a given one, and
those on the two sides of a column. -/

namespace TurtleArt.Direction

variable {d e : Direction}

def Axial (d : Direction) : Prop :=
  d.step.1 = 0 ∨ d.step.2 = 0

instance (d : Direction) : Decidable d.Axial :=
  inferInstanceAs (Decidable (_ ∨ _))

theorem Axial.left_left (h : d.Axial) : d.left.left.Axial := by
  revert h
  cases d <;> decide

theorem Axial.right_right (h : d.Axial) : d.right.right.Axial := by
  revert h
  cases d <;> decide

/-- The directions that lead some way along another: itself and the two next to it. -/
def Toward (e d : Direction) : Prop :=
  d = e.left ∨ d = e ∨ d = e.right

theorem Toward.fork (h : e.Toward d) : e.Toward d.left ∨ e.Toward d.right := by
  rcases h with rfl | rfl | rfl
  · exact .inr (.inr (.inl e.left_right))
  · exact .inl (.inl rfl)
  · exact .inl (.inr (.inl e.right_left))

def mirror : Direction → Direction
  | north => north
  | northEast => northWest
  | east => west
  | southEast => southWest
  | south => south
  | southWest => southEast
  | west => east
  | northWest => northEast

theorem mirror_left (d : Direction) : d.left.mirror = d.mirror.right := by cases d <;> rfl

theorem mirror_right (d : Direction) : d.right.mirror = d.mirror.left := by cases d <;> rfl

end TurtleArt.Direction
