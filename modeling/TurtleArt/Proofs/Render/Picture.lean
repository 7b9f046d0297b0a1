import TurtleArt.Proofs.Canvas.Depiction
import TurtleArt.Proofs.Render.Outcome
import TurtleArt.Proofs.Turtle.Exactness

/-! The picture of a word, told by the marks of its walk: the rows from the highest mark to the
lowest, in the columns from the leftmost to the rightmost, with the last mark in every cell. -/

namespace TurtleArt

namespace Turtle

variable {side : Nat} {origin : Position} {e : Cell} {heading : Direction}
  {commands : List Command} {u : Turtle side}

theorem depicts_run (start : e.wrap = origin)
    (h : (place (.blank side) origin heading).run commands = .ok u) :
    u.canvas.Depicts ((Walker.place e heading).draws commands) where
  glyph_eq x y := by
    rw [Canvas.glyph, at?_run (follows_place _ start heading) h]
    cases Mark.glyphAt _ _ with
    | none => exact Canvas.glyph_blank side x y
    | some g => rfl
  within := by
    obtain ⟨v, clears, -⟩ := clears_of_run (follows_place _ start heading) h
    exact List.forall_mem_map.mpr clears.2
  arrow := List.forall_mem_map.mpr fun _ => Walker.glyph_of_mem_marks

theorem draws_eq_marks_lift (start : e.wrap = origin)
    (h : (place (.blank side) origin heading).run commands = .ok u) :
    (Walker.place e heading).draws commands = (Walker.place origin.lift heading).marks commands := by
  obtain ⟨v, clears, -⟩ := clears_of_run (follows_place _ origin.wrap_lift heading) h
  rw [Walker.draws_place_congr (start.trans origin.wrap_lift.symm)]
  exact (Walker.tame_place (origin.tame_lift side) heading).draws_eq clears.2

theorem depicts_lift (h : (place (.blank side) origin heading).run commands = .ok u) :
    u.canvas.Depicts ((Walker.place origin.lift heading).marks commands) :=
  draws_eq_marks_lift origin.wrap_lift h ▸ depicts_run origin.wrap_lift h

theorem unbroken_lift (h : (place (.blank side) origin heading).run commands = .ok u) :
    Mark.Unbroken ((Walker.place origin.lift heading).marks commands) := by
  obtain ⟨v, clears, -⟩ := clears_of_run (follows_place _ origin.wrap_lift heading) h
  exact Walker.unbroken_marks clears.1

end Turtle

theorem Mark.Box.within {side : Nat} {marks : List Mark} {left right bottom top : Int}
    (box : Box marks left right bottom top) (columns : 0 ≤ left ∧ right < side)
    (rows : 0 ≤ bottom ∧ top < side) : ∀ m ∈ marks, m.cell.Within side := by
  intro m hm
  have inside := box.bounds hm
  unfold Cell.Within
  omega

namespace Render

open Mark

section Drawn

variable (config : Config) (start : Nat → Position) {i : Interpreter} {w : Word} {side : Nat}
  {origin : Cell} {commands : List Command} {v : Walker} (reads : i.Reads w commands)
  (hside : Render.side config i w = side) (hstart : origin.wrap = start side)

include reads hside hstart

theorem value_word_of_clears
    (clears : (Walker.place origin config.heading).Clears side commands v) :
    ∃ u, (Turtle.place (.blank side) (start side) config.heading).run commands = .ok u ∧
      (word config i start w).value = .ok u.canvas.draw := by
  obtain ⟨u, hrun⟩ :=
    Turtle.exists_run (Turtle.follows_place (.blank side) hstart config.heading) clears
  refine ⟨u, hrun, ?_⟩
  rw [value_word_of_reads config start reads, hside, picture, hrun]

theorem value_word_eq_view {left right bottom top : Int} (small : side ≤ StartPosition.farthest)
    (walk : (Walker.place origin config.heading).walk? commands = some v)
    (box : Box ((Walker.place origin config.heading).marks commands) left right bottom top)
    (columns : 0 ≤ left ∧ right < side) (rows : 0 ≤ bottom ∧ top < side) :
    (word config i start w).value = .ok (String.ofList (Canvas.unlines
      (view ((Walker.place origin config.heading).marks commands) left right bottom top))) := by
  have inside := box.within columns rows
  obtain ⟨u, hrun, drawn⟩ := value_word_of_clears config start reads hside hstart
    (Walker.clears_of_within walk inside small)
  have depicts := Turtle.depicts_run hstart hrun
  rw [Walker.draws_eq_of_within inside (Nat.le_succ_of_le small)] at depicts
  rw [drawn]
  exact congrArg Except.ok (depicts.draw_eq_view (Walker.unbroken_marks walk) box)

theorem exists_lines {left right bottom top : Int} (small : side ≤ StartPosition.farthest)
    (walk : (Walker.place origin config.heading).walk? commands = some v)
    (box : Box ((Walker.place origin config.heading).marks commands) left right bottom top)
    (columns : 0 ≤ left ∧ right < side) (rows : 0 ≤ bottom ∧ top < side) :
    ∃ lines, (word config i start w).value = .ok (String.ofList (Canvas.unlines lines)) ∧
      lines.length = top + 1 - bottom ∧
        ∀ line ∈ lines, (line.length = right + 1 - left ∧ '\n' ∉ line) ∧
          line ∈ view ((Walker.place origin config.heading).marks commands)
            left right bottom top := by
  have drawn := value_word_eq_view config start reads hside hstart small walk box columns rows
  refine ⟨_, drawn, length_view box, ?_⟩
  intro line hline
  have plain := newline_notMem_view (fun m => Walker.glyph_of_mem_marks) hline
  exact ⟨⟨length_of_mem_view box hline, plain⟩, hline⟩

end Drawn

/-- The picture of a word, drawn from the marks of its walk. -/
theorem word_picture (config : Config) (i : Interpreter) (start : Nat → Position) (w : Word)
    (art : String) (h : (word config i start w).value = .ok art) :
    let side := max config.minSide (w.countP i.isMovement)
    let walker := Walker.place (start side).toCell config.heading
    ∃ commands v, i.Reads w commands ∧ walker.Clears side commands v ∧
      let marks := walker.draws commands
      (marks = [] → art = if side = 0 then "" else " \n") ∧
        (marks ≠ [] → ∃ left right bottom top, Box marks left right bottom top ∧
          art = String.ofList (Canvas.unlines (view marks left right bottom top)) ∧
          (view marks left right bottom top).length = top + 1 - bottom ∧
          (∀ line ∈ view marks left right bottom top,
            line.length = right + 1 - left ∧ '\n' ∉ line) ∧
          ∀ y, bottom ≤ y → y ≤ top → ∃ m ∈ marks, m.cell.y = y) := by
  intro side walker
  cases hread : i.instructions w with
  | error f =>
    rw [value_word_of_unread config start hread] at h
    cases h
  | ok commands =>
    have reads := Interpreter.instructions_eq_ok_iff.mp hread
    rw [value_word_of_reads config start reads, picture] at h
    split at h
    · rename_i u hrun
      obtain rfl := Except.ok.inj h
      have here : (start side).toCell.wrap = start side := (start side).wrap_toCell
      have depicts := Turtle.depicts_run here hrun
      have rows : Unbroken (walker.draws commands) :=
        Turtle.draws_eq_marks_lift here hrun ▸ Turtle.unbroken_lift hrun
      obtain ⟨v, clears, -⟩ :=
        Turtle.clears_of_run (Turtle.follows_place_toCell ..) hrun
      refine ⟨commands, v, reads, clears, ?_, ?_⟩
      · intro empty
        exact (empty ▸ depicts).draw_eq_of_nil
      · intro marked
        obtain ⟨left, right, bottom, top, box⟩ := exists_box marked
        refine ⟨left, right, bottom, top, box, depicts.draw_eq_view rows box, length_view box,
          ?_, ?_⟩
        · intro line hline
          exact ⟨length_of_mem_view box hline, newline_notMem_view depicts.arrow hline⟩
        · intro y hbottom htop
          exact (box.exists_row_iff rows y).mpr ⟨hbottom, htop⟩
    · cases h

/-- A branch that opens where the turtle turned: its mark replaces the one of the step before. -/
theorem word_picture_of_branch :
    let w := ['F', '+', '[', 'F', ']']
    let i := (CommandTable.ofEdits [.bindStandard]).interpreter
    let start (side : Nat) := StartPosition.central.origin side
    let walker := Walker.place (start (max 3 (w.countP i.isMovement))).toCell .north
    (word {} i start w).value = .ok " ←\n↙ \n" ∧
      ∃ commands v, i.Reads w commands ∧
        walker.Clears (max 3 (w.countP i.isMovement)) commands v ∧ walker.draws commands ≠ [] := by
  intro w i start walker
  have drawn : (word {} i start w).value = .ok " ←\n↙ \n" := by decide +kernel
  obtain ⟨commands, v, reads, clears, blank, -⟩ := word_picture {} i start w " ←\n↙ \n" drawn
  refine ⟨drawn, commands, v, reads, clears, ?_⟩
  intro empty
  exact absurd (blank empty) (by decide)

end Render
end TurtleArt
