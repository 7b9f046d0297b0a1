import TurtleArt.Proofs.Canvas.Layout
import TurtleArt.Proofs.Render.Placement
import TurtleArt.Proofs.Turtle.Rotation

/-! A turtle that sets out a quarter turn further to the right draws the same picture turned by a
quarter: the lines become columns, and every arrow turns with them. -/

namespace TurtleArt

open Canvas Direction Mark

theorem Mark.glyphAt_quarterTurn (marks : List Mark) (e : Cell) :
    (glyphAt (marks.map Motion.quarterTurn.mark) e.quarterTurn).getD ' ' =
      turnGlyph ((glyphAt marks e).getD ' ') := by
  have turned := Motion.quarterTurn.glyphAt_map_mark marks e
  change glyphAt _ e.quarterTurn = (glyphAt marks e).map turnGlyph at turned
  rw [turned]
  cases glyphAt marks e with
  | none => exact turnGlyph_space.symm
  | some g => rfl

theorem Mark.charAt_view_quarterTurn {marks : List Mark} {left right bottom top : Int}
    {row column height : Nat} (hheight : height = (top + 1 - bottom).toNat) (hrow : row < height)
    (hcolumn : column < (right + 1 - left).toNat) :
    ∃ glyph, charAt (view marks left right bottom top) row column = some glyph ∧
      charAt (view (marks.map Motion.quarterTurn.mark) bottom top (-right) (-left)) column
        (height - 1 - row) = some (turnGlyph glyph) := by
  have cell : (⟨bottom + (height - 1 - row : Nat), -left - column⟩ : Cell) =
      (⟨left + column, top - row⟩ : Cell).quarterTurn := by
    ext <;> simp only [Cell.quarterTurn] <;> omega
  refine ⟨_, charAt_view (by omega) hcolumn, ?_⟩
  rw [charAt_view (by omega) (by omega), cell, glyphAt_quarterTurn]

namespace Render

/-- The art for a heading and for the heading a quarter turn to its right: a character of the one
stands in the other where a quarter turn of the whole art takes it, an arrow turned as well. -/
theorem art_turns_with_heading (config config' : Config) (i : Interpreter)
    (start start' : Nat → Position) (w : Word) (art art' : String)
    (heading : config'.heading = config.heading.right.right)
    (h : (word config i start w).value = .ok art)
    (h' : (word config' i start' w).value = .ok art')
    (drawn : ∃ commands, i.Reads w commands ∧
      (Walker.place (start (side config i w)).toCell config.heading).marks commands ≠ []) :
    (∃ height width lines, Layout art height width lines) ∧
      ∀ height width lines, Layout art height width lines →
        ∃ lines', Layout art' width height lines' ∧
          ∀ row column, row < height → column < width →
            ∃ glyph, charAt lines row column = some glyph ∧
              charAt lines' column (height - 1 - row) = some (turnGlyph glyph) := by
  obtain ⟨commands, u, reads, hrun, rfl⟩ := exists_run_of_value h
  obtain ⟨commands', u', reads', hrun', rfl⟩ := exists_run_of_value h'
  obtain rfl := reads.unique reads'
  obtain ⟨_, reads'', marked⟩ := drawn
  obtain rfl := reads.unique reads''
  rw [Walker.marks_place, ne_eq, List.map_eq_nil_iff] at marked
  -- Both texts are views of marks left from the origin, the second ones a quarter turn of the first.
  obtain ⟨left, right, bottom, top, box⟩ := exists_box marked
  have box' : Box ((Walker.place ⟨0, 0⟩ config'.heading).marks commands)
      bottom top (-right) (-left) := by
    rw [heading, Walker.marks_place_right_right]
    exact box.quarterTurn
  have layout := layout_view box fun m => Walker.glyph_of_mem_marks
  have layout' := layout_view box' fun m => Walker.glyph_of_mem_marks
  rw [Turtle.draw_run_of_box hrun box, Turtle.draw_run_of_box hrun' box']
  refine ⟨⟨_, _, _, layout⟩, ?_⟩
  intro height width lines other
  have positive : 0 < (top + 1 - bottom).toNat := by
    have rows := box.top.2 box.bottom.1
    omega
  -- The text settles its lines and its size, so any other layout of it is that of the view.
  obtain rfl := layout.lines_unique other
  obtain ⟨hheight, hwidth⟩ := layout.size_unique other positive
  have columns : (-left + 1 - -right).toNat = width := by omega
  rw [columns, hheight] at layout'
  refine ⟨_, layout', ?_⟩
  intro row column hrow hcolumn
  rw [heading, Walker.marks_place_right_right]
  exact charAt_view_quarterTurn hheight.symm hrow (hwidth.symm ▸ hcolumn)

/-- A twig grown to the north has two lines of three characters, and the same twig grown to the east
three lines of two. Its arrow in the last place of the last line moves to the first place there. -/
theorem art_turns_with_heading_of_twig :
    let w := ['F', '[', '+', 'F', ']', '-', 'F']
    let i := (CommandTable.ofEdits [.bindStandard]).interpreter
    let start (side : Nat) := StartPosition.central.origin side
    let lines := [[' ', '↑', ' '], ['↙', ' ', '↘']]
    (word {} i start w).value = .ok " ↑ \n↙ ↘\n" ∧
      (word { heading := .east } i start w).value = .ok "↖ \n →\n↙ \n" ∧
      (∃ commands, i.Reads w commands ∧
        (Walker.place (start (side {} i w)).toCell .north).marks commands ≠ []) ∧
      Layout " ↑ \n↙ ↘\n" 2 3 lines ∧
      ∃ lines', Layout "↖ \n →\n↙ \n" 3 2 lines' ∧ charAt lines' 2 0 = some '↙' := by
  intro w i start lines
  let commands : List Command :=
    [.drawLine, .pushBranch, .turnLeft, .drawLine, .popBranch, .turnRight, .drawLine]
  have north : (word {} i start w).value = .ok " ↑ \n↙ ↘\n" := by decide +kernel
  have east : (word { heading := .east } i start w).value = .ok "↖ \n →\n↙ \n" := by decide +kernel
  have drawn : ∃ commands, i.Reads w commands ∧
      (Walker.place (start (side {} i w)).toCell .north).marks commands ≠ [] :=
    ⟨commands, rfl, List.cons_ne_nil _ _⟩
  have layout : Layout " ↑ \n↙ ↘\n" 2 3 lines := ⟨rfl, rfl, by decide, by decide⟩
  obtain ⟨-, turned⟩ :=
    art_turns_with_heading {} { heading := .east } i start start w _ _ rfl north east drawn
  obtain ⟨lines', layout', cells⟩ := turned 2 3 lines layout
  obtain ⟨glyph, hglyph, hturned⟩ := cells 1 2 (by decide) (by decide)
  obtain rfl : '↘' = glyph := Option.some.inj hglyph
  exact ⟨north, east, drawn, layout, lines', layout', hturned⟩

end Render
end TurtleArt
