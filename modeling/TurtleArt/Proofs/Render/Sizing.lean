import TurtleArt.Proofs.Render.Outcome
import TurtleArt.Proofs.Symbol.Canonical
import TurtleArt.Proofs.Turtle.Exactness

/-! When a canvas with a cell for every movement holds a drawing. It need not: the cell a turtle
starts from gets no mark, so even a straight run of movements can end beside the canvas. What
counts is how far the marks reach from the start. -/

namespace TurtleArt.Render

open Interpreter

variable {w : Word} {commands : List Command}

theorem movements_eq_countP {t : CommandTable}
    (flags : t.movement = t.ops.keysWhere Command.isDrawing)
    (reads : t.interpreter.Reads w commands) :
    t.interpreter.movements w = commands.countP Command.isDrawing := by
  have isMovement (c : Char) (command : Command) (hc : t.interpreter.command? c = some command) :
      t.interpreter.isMovement c = command.isDrawing := by
    rw [Bool.eq_iff_iff]
    change t.movement.contains c = true ↔ _
    rw [SymbolSet.contains_iff, flags, SymbolMap.mem_keysWhere]
    change t.ops.get? c = some command at hc
    simp [hc]
  induction w generalizing commands with
  | nil =>
    obtain rfl : commands = [] := by simpa using reads.length_eq
    rfl
  | cons c w ih =>
    obtain ⟨command, rest, rfl, hc, hrest⟩ := reads_cons_iff.mp reads
    have tail : w.countP t.interpreter.isMovement = rest.countP Command.isDrawing := ih hrest
    rw [movements, List.countP_cons, List.countP_cons, tail, isMovement c command hc]

/-- A drawing leaves its canvas just when some mark, moved to the start, is not addressed there. On
a canvas whose side is a coordinate this means that the mark lies farther from the start than the
canvas reaches on that side. -/
theorem never_outOfBounds_iff_reach (t : CommandTable) (start : StartPosition) (w : Word)
    (commands : List Command) (flags : t.movement = t.ops.keysWhere Command.isDrawing)
    (reads : t.interpreter.Reads w commands) :
    let side := max 3 (commands.countP Command.isDrawing)
    let origin := (start.origin side).toCell
    let fits := ∀ p n, (word {} t.interpreter (fun side => start.origin side) w).value ≠
      .error (.outOfBounds p n)
    let marks := (Walker.place ⟨0, 0⟩ .north).marks commands
    (fits ↔ ∀ m ∈ marks, (m.cell.offset origin.x origin.y).wrap.Within side) ∧
      (side ≤ StartPosition.farthest → (fits ↔ ∀ m ∈ marks,
        (-origin.x ≤ m.cell.x ∧ m.cell.x < side - origin.x) ∧
          -origin.y ≤ m.cell.y ∧ m.cell.y < side - origin.y)) := by
  intro side origin fits marks
  have hside : Render.side {} t.interpreter w = side := by
    rw [Render.side, movements_eq_countP flags reads]
  have leaves : ¬fits ↔
      ∃ m ∈ (Walker.place origin .north).marks commands, ¬m.cell.wrap.Within side := by
    simp only [fits, ne_eq, not_forall, not_not, value_word_of_reads _ _ reads, hside,
      picture_eq_error_iff]
    exact Turtle.run_eq_outOfBounds_iff (Turtle.follows_place_toCell ..)
  have addressed : fits ↔
      ∀ m ∈ (Walker.place origin .north).marks commands, m.cell.wrap.Within side := by
    rw [← not_iff_not, leaves]
    simp only [not_forall, exists_prop]
  have inside (m : Mark) : (m.cell.offset origin.x origin.y).Within side ↔
      (-origin.x ≤ m.cell.x ∧ m.cell.x < side - origin.x) ∧
        -origin.y ≤ m.cell.y ∧ m.cell.y < side - origin.y := by
    simp only [Cell.offset, Cell.Within]
    omega
  constructor
  · rw [addressed, Walker.marks_place, List.forall_mem_map]
    rfl
  · intro small
    -- A mark that is addressed on the canvas lies on it, as a walk that went around the addresses
    -- would have left the canvas before.
    have tame := Walker.tame_place ((start.origin side).tame_toCell small) .north
    rw [addressed, tame.within_iff small, Walker.marks_place, List.forall_mem_map]
    exact forall₂_congr fun m _ => inside m

theorem never_outOfBounds_of_square :
    let t := CommandTable.ofEdits [.bindStandard]
    let w := ['F', '+', 'F', '+', 'F', '+', 'F', 'F']
    t.movement = t.ops.keysWhere Command.isDrawing ∧ ∃ commands, t.interpreter.Reads w commands ∧
      ∀ p n, (word {} t.interpreter (fun side => StartPosition.central.origin side) w).value ≠
        .error (.outOfBounds p n) := by
  intro t w
  let commands : List Command := [.drawLine, .turnLeft, .drawLine, .turnLeft, .drawLine, .turnLeft,
    .drawLine, .drawLine]
  have flags : t.movement = t.ops.keysWhere Command.isDrawing := by decide
  have reads : t.interpreter.Reads w commands := rfl
  refine ⟨flags, commands, reads, ?_⟩
  exact ((never_outOfBounds_iff_reach t .central w commands flags reads).2 (by decide)).mpr
    (by decide)

/-- From each anchor some run of movements leaves the canvas that has a cell for each of them. -/
theorem exists_outOfBounds_of_anchor :
    let t := CommandTable.ofEdits [.bindStandard]
    let draw (start : StartPosition) (w : Word) :=
      (word {} t.interpreter (fun side => start.origin side) w).value
    t.movement = t.ops.keysWhere Command.isDrawing ∧
      draw .middleBottom ['F', 'F', 'F', 'F'] = .error (.outOfBounds ⟨2, 4⟩ 4) ∧
      draw .central ['F', 'F'] = .error (.outOfBounds ⟨1, 3⟩ 3) ∧
      draw .bottomRight ['-', 'F'] = .error (.outOfBounds ⟨3, 0⟩ 3) :=
  ⟨by decide, rfl, rfl, rfl⟩

end TurtleArt.Render
