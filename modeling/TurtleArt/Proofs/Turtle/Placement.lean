import TurtleArt.Proofs.Turtle.Translation
import TurtleArt.Proofs.Turtle.View

/-! The view of marks does not tell where they lie: marks that are moved together look the same. -/

namespace TurtleArt.Mark

variable {marks : List Mark} {left right bottom top : Int} (dx dy : Int)

theorem Box.offset (box : Box marks left right bottom top) :
    Box (marks.map (Mark.offset dx dy)) (left + dx) (right + dx) (bottom + dy) (top + dy) := by
  have moved {P : Mark → Prop} (h : ∃ m ∈ marks, P (m.offset dx dy)) :=
    (Motion.translation dx dy).exists_mem_map_mark h
  obtain ⟨a, ha, hleft⟩ := box.left.1
  obtain ⟨b, hb, hright⟩ := box.right.1
  obtain ⟨d, hd, hbottom⟩ := box.bottom.1
  obtain ⟨e, he, htop⟩ := box.top.1
  apply box_of_bounds
  · rw [List.forall_mem_map]
    intro m hm
    have inside := box.bounds hm
    simp only [Mark.offset, Cell.offset]
    omega
  · exact moved ⟨a, ha, congrArg (· + dx) hleft⟩
  · exact moved ⟨b, hb, congrArg (· + dx) hright⟩
  · exact moved ⟨d, hd, congrArg (· + dy) hbottom⟩
  · exact moved ⟨e, he, congrArg (· + dy) htop⟩

theorem glyphAt_offset (marks : List Mark) (p : Cell) :
    glyphAt (marks.map (Mark.offset dx dy)) (p.offset dx dy) = glyphAt marks p :=
  ((Motion.translation dx dy).glyphAt_map_mark marks p).trans Option.map_id'

theorem view_offset (marks : List Mark) (left right bottom top : Int) :
    view (marks.map (Mark.offset dx dy)) (left + dx) (right + dx) (bottom + dy) (top + dy) =
      view marks left right bottom top := by
  have height : top + dy + 1 - (bottom + dy) = top + 1 - bottom := by omega
  have width : right + dx + 1 - (left + dx) = right + 1 - left := by omega
  rw [view, view, height, width]
  apply List.map_congr_left
  intro i _
  apply List.map_congr_left
  intro j _
  have cell : (⟨left + dx + j, top + dy - i⟩ : Cell) =
      (⟨left + j, top - i⟩ : Cell).offset dx dy := by
    ext <;> simp only [Cell.offset] <;> omega
  rw [cell, glyphAt_offset]

end TurtleArt.Mark
