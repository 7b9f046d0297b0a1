import TurtleArt.Proofs.Turtle.Motion

/-! Walks have no sense of place: one that starts elsewhere goes the same way from there. -/

namespace TurtleArt

theorem Cell.advance_offset (p : Cell) (dx dy : Int) (d : Direction) :
    (p.offset dx dy).advance d = (p.advance d).offset dx dy := by
  ext <;> simp only [advance, offset] <;> omega

theorem Cell.offset_injective {dx dy : Int} {p q : Cell}
    (h : p.offset dx dy = q.offset dx dy) : p = q := by
  obtain ⟨hx, hy⟩ := Cell.mk.inj h
  ext
  · exact (Int.add_left_inj dx).mp hx
  · exact (Int.add_left_inj dy).mp hy

def Stance.offset (s : Stance) (dx dy : Int) : Stance :=
  { s with cell := s.cell.offset dx dy }

def Mark.offset (dx dy : Int) (m : Mark) : Mark :=
  { m with cell := m.cell.offset dx dy }

def Motion.translation (dx dy : Int) : Motion where
  cell p := p.offset dx dy
  heading d := d
  glyph g := g
  cell_advance p d := (p.advance_offset dx dy d).symm
  heading_left _ := rfl
  heading_right _ := rfl
  glyph_arrow _ := rfl
  cell_injective _ _ := Cell.offset_injective

namespace Walker

def offset (w : Walker) (dx dy : Int) : Walker where
  stance := w.stance.offset dx dy
  saved := w.saved.map (·.offset dx dy)

variable (w : Walker) (dx dy : Int)

theorem walk?_offset (commands : List Command) :
    (w.offset dx dy).walk? commands = (w.walk? commands).map (·.offset dx dy) :=
  (Motion.translation dx dy).walk?_walker w commands

theorem marks_offset (commands : List Command) :
    (w.offset dx dy).marks commands = (w.marks commands).map (Mark.offset dx dy) :=
  (Motion.translation dx dy).marks_walker w commands

theorem place_eq_offset (p : Cell) (d : Direction) :
    place p d = (place ⟨0, 0⟩ d).offset p.x p.y := by
  simp [place, offset, Stance.offset, Cell.offset]

theorem marks_place (p : Cell) (d : Direction) (commands : List Command) :
    (place p d).marks commands = ((place ⟨0, 0⟩ d).marks commands).map (Mark.offset p.x p.y) := by
  rw [place_eq_offset, marks_offset]

end Walker
end TurtleArt
