import TurtleArt.Proofs.Turtle.Motion
import TurtleArt.Proofs.Turtle.View

/-! A quarter turn of the plane, clockwise about the origin. Walks turn with it, and arrows turn by
as much. -/

namespace TurtleArt

namespace Direction

def ofArrow? (glyph : Char) : Option Direction :=
  all.find? fun d => d.arrow = glyph

theorem ofArrow?_arrow (d : Direction) : ofArrow? d.arrow = some d := by
  cases d <;> decide

/-- A glyph after a quarter turn clockwise. What is no arrow looks the same. -/
def turnGlyph (glyph : Char) : Char :=
  match ofArrow? glyph with
  | some d => d.right.right.arrow
  | none => glyph

theorem turnGlyph_arrow (d : Direction) : turnGlyph d.arrow = d.right.right.arrow := by
  rw [turnGlyph, ofArrow?_arrow]

theorem turnGlyph_space : turnGlyph ' ' = ' ' := by decide

theorem step_right_right (d : Direction) : d.right.right.step = (d.step.2, -d.step.1) := by
  cases d <;> rfl

end Direction

def Cell.quarterTurn (p : Cell) : Cell :=
  ⟨p.y, -p.x⟩

theorem Cell.quarterTurn_advance (p : Cell) (d : Direction) :
    (p.advance d).quarterTurn = p.quarterTurn.advance d.right.right := by
  ext
  · simp only [advance, quarterTurn, Direction.step_right_right]
  · simp only [advance, quarterTurn, Direction.step_right_right]
    omega

theorem Cell.quarterTurn_injective {p q : Cell} (h : p.quarterTurn = q.quarterTurn) :
    p = q := by
  obtain ⟨hy, hx⟩ := Cell.mk.inj h
  exact Cell.ext (Int.neg_inj.mp hx) hy

def Motion.quarterTurn : Motion where
  cell := Cell.quarterTurn
  heading d := d.right.right
  glyph := Direction.turnGlyph
  cell_advance := Cell.quarterTurn_advance
  heading_left d := by cases d <;> rfl
  heading_right _ := rfl
  glyph_arrow := Direction.turnGlyph_arrow
  cell_injective _ _ := Cell.quarterTurn_injective

theorem Walker.marks_place_right_right (d : Direction) (commands : List Command) :
    (place ⟨0, 0⟩ d.right.right).marks commands =
      ((place ⟨0, 0⟩ d).marks commands).map Motion.quarterTurn.mark :=
  Motion.quarterTurn.marks_walker (place ⟨0, 0⟩ d) commands

namespace Mark

variable {marks : List Mark} {left right bottom top : Int}

theorem Box.quarterTurn (box : Box marks left right bottom top) :
    Box (marks.map Motion.quarterTurn.mark) bottom top (-right) (-left) := by
  obtain ⟨a, ha, hleft⟩ := box.left.1
  obtain ⟨b, hb, hright⟩ := box.right.1
  apply box_of_bounds
  · rw [List.forall_mem_map]
    intro m hm
    have inside := box.bounds hm
    simp only [Motion.mark, Motion.quarterTurn, Cell.quarterTurn]
    omega
  · exact Motion.quarterTurn.exists_mem_map_mark box.bottom.1
  · exact Motion.quarterTurn.exists_mem_map_mark box.top.1
  · exact Motion.quarterTurn.exists_mem_map_mark ⟨b, hb, congrArg Int.neg hright⟩
  · exact Motion.quarterTurn.exists_mem_map_mark ⟨a, ha, congrArg Int.neg hleft⟩

end Mark
end TurtleArt
