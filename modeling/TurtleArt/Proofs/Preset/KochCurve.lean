import Mathlib.Algebra.Order.Ring.Nat
import TurtleArt.Preset
import TurtleArt.Proofs.Grammar
import TurtleArt.Proofs.Render.Picture
import TurtleArt.Proofs.Render.Sizing
import TurtleArt.Proofs.Turtle.Frame

/-! The Koch curve in every generation. It consists of five curves of the generation before: three
in its own direction and, between them, one to its left and one back. Seen from its start, it never
comes to the right of it nor behind it, and it ends straight ahead. -/

namespace TurtleArt.KochCurve

open Interpreter

def path : Nat → List Command
  | 0 => [.drawLine]
  | n + 1 => path n ++ .turnLeft :: (path n ++ .turnRight :: (path n ++ .turnRight ::
      (path n ++ .turnLeft :: path n)))

theorem path_succ (n : Nat) :
    path (n + 1) = path n ++ .turnLeft :: (path n ++ .turnRight :: (path n ++ .turnRight ::
      (path n ++ .turnLeft :: path n))) := rfl

theorem reads_path (n : Nat) :
    Preset.curveCommands.interpreter.Reads (Preset.kochCurve.grammar.grown ['F'] n) (path n) := by
  have left : Preset.curveCommands.interpreter.Reads ['+'] [.turnLeft] := rfl
  have right : Preset.curveCommands.interpreter.Reads ['-'] [.turnRight] := rfl
  induction n with
  | zero => rfl
  | succ n ih =>
    have rule : Preset.kochCurve.grammar.rewrite 'F' =
        ['F', '+', 'F', '-', 'F', '-', 'F', '+', 'F'] := rfl
    have plus := Grammar.grown_of_fixed (g := Preset.kochCurve.grammar) (c := '+') rfl n
    have minus := Grammar.grown_of_fixed (g := Preset.kochCurve.grammar) (c := '-') rfl n
    rw [Grammar.grown_symbol_succ, rule]
    simp only [Grammar.grown_cons_cons, plus, minus]
    exact ih.append (left.append (ih.append (right.append (ih.append (right.append
      (ih.append (left.append ih)))))))

theorem reads_expand (n : Nat) :
    Preset.curveCommands.interpreter.Reads (Preset.kochCurve.grammar.expand n) (path n) := by
  rw [Grammar.expand_eq_grown rfl]
  exact reads_path n

theorem countP_isDrawing_path (n : Nat) : (path n).countP Command.isDrawing = 5 ^ n := by
  induction n with
  | zero => rfl
  | succ n ih =>
    rw [path_succ]
    simp [Command.isDrawing, ih]
    omega

theorem movements_expand (n : Nat) :
    Preset.curveCommands.interpreter.movements (Preset.kochCurve.grammar.expand n) = 5 ^ n := by
  have flags : Preset.curveCommands.movement =
      Preset.curveCommands.ops.keysWhere Command.isDrawing := by decide
  rw [Render.movements_eq_countP flags (reads_expand n), countP_isDrawing_path]

theorem walk?_path (n : Nat) (s : Stance) :
    ({ stance := s } : Walker).walk? (path n) = some { stance := s.shift (3 ^ n) 0 } := by
  induction n generalizing s with
  | zero => simp [path, Walker.walk?_cons, Walker.next?, Stance.advance_eq_shift]
  | succ n ih =>
    rw [path_succ]
    simp only [Walker.walk?_append, Walker.walk?_cons, Walker.next?, ih, Option.bind_some,
      Stance.shift_left_left, Stance.shift_right_right, Stance.left_right, Stance.right_left,
      Stance.shift_shift]
    have ahead : (3 : Int) ^ n + -0 + 3 ^ n + 0 + 3 ^ n = 3 ^ (n + 1) := by omega
    have aside : 0 + (3 : Int) ^ n + 0 + -3 ^ n + 0 = 0 := by omega
    rw [ahead, aside]

def marks (n : Nat) (s : Stance) : List Mark :=
  ({ stance := s } : Walker).marks (path n)

theorem marks_succ (n : Nat) (s : Stance) :
    marks (n + 1) s = marks n s ++ (marks n (s.shift (3 ^ n) 0).left.left ++
      (marks n (s.shift (3 ^ n) (3 ^ n)) ++
        (marks n (s.shift (2 * 3 ^ n) (3 ^ n)).right.right ++
          marks n (s.shift (2 * 3 ^ n) 0)))) := by
  have there : (3 : Int) ^ n + -0 = 3 ^ n ∧ 0 + (3 : Int) ^ n = 3 ^ n := by omega
  have on : (3 : Int) ^ n + 3 ^ n = 2 * 3 ^ n ∧ (3 : Int) ^ n + 0 = 3 ^ n := by omega
  have back : 2 * (3 : Int) ^ n + 0 = 2 * 3 ^ n ∧ (3 : Int) ^ n + -3 ^ n = 0 := by omega
  unfold marks
  rw [path_succ, Walker.marks_append (walk?_path n _), Walker.marks_turnLeft,
    Walker.marks_append (walk?_path n _), Walker.marks_turnRight,
    Walker.marks_append (walk?_path n _), Walker.marks_turnRight,
    Walker.marks_append (walk?_path n _), Walker.marks_turnLeft]
  simp only [Stance.shift_left_left, Stance.shift_right_right, Stance.left_right, Stance.right_left,
    Stance.shift_shift, there, on, back]

/-- All marks lie ahead of the start, as far as the curve reaches, and to the left of it by less
than half of that. -/
theorem exists_shift_of_mem_marks {n : Nat} {s : Stance} {m : Mark} (h : m ∈ marks n s) :
    ∃ a b, m.cell = (s.shift a b).cell ∧ (1 ≤ a ∧ a ≤ 3 ^ n) ∧ 0 ≤ b ∧ 2 * b + 1 ≤ 3 ^ n := by
  induction n generalizing s with
  | zero =>
    obtain rfl := List.mem_singleton.mp h
    refine ⟨1, 0, ?_, by decide, by decide⟩
    rw [← Stance.advance_eq_shift]
  | succ n ih =>
    rw [marks_succ] at h
    simp only [List.mem_append] at h
    rcases h with h | h | h | h | h
    · obtain ⟨a, b, hcell, ha, hb⟩ := ih h
      exact ⟨a, b, hcell, by omega, by omega⟩
    -- The curve to the left bulges backwards, by less than its start is ahead of that of the whole.
    · obtain ⟨a, b, hcell, ha, hb⟩ := ih h
      rw [Stance.shift_left_left, Stance.shift_shift] at hcell
      exact ⟨_, _, hcell, by omega, by omega⟩
    · obtain ⟨a, b, hcell, ha, hb⟩ := ih h
      rw [Stance.shift_shift] at hcell
      exact ⟨_, _, hcell, by omega, by omega⟩
    -- The curve back bulges ahead, and ends where the last one starts.
    · obtain ⟨a, b, hcell, ha, hb⟩ := ih h
      rw [Stance.shift_right_right, Stance.shift_shift] at hcell
      exact ⟨_, _, hcell, by omega, by omega⟩
    · obtain ⟨a, b, hcell, ha, hb⟩ := ih h
      rw [Stance.shift_shift] at hcell
      exact ⟨_, _, hcell, by omega, by omega⟩

theorem exists_mark_first (n : Nat) (s : Stance) :
    ∃ m ∈ marks n s, m.cell = (s.shift 1 0).cell := by
  induction n generalizing s with
  | zero =>
    refine ⟨_, List.mem_singleton_self _, ?_⟩
    rw [← Stance.advance_eq_shift]
  | succ n ih =>
    obtain ⟨m, hm, hcell⟩ := ih s
    rw [marks_succ]
    exact ⟨m, List.mem_append_left _ hm, hcell⟩

theorem exists_mark_last (n : Nat) (s : Stance) :
    ∃ m ∈ marks n s, m.cell = (s.shift (3 ^ n) 0).cell := by
  induction n generalizing s with
  | zero =>
    refine ⟨_, List.mem_singleton_self _, ?_⟩
    rw [Int.pow_zero, ← Stance.advance_eq_shift]
  | succ n ih =>
    obtain ⟨m, hm, hcell⟩ := ih (s.shift (2 * 3 ^ n) 0)
    have ahead : 2 * (3 : Int) ^ n + 3 ^ n = 3 ^ (n + 1) := by omega
    rw [Stance.shift_shift, ahead] at hcell
    rw [marks_succ]
    exact ⟨m, by simp [hm], hcell⟩

theorem exists_mark_left (n : Nat) (s : Stance) :
    ∃ m ∈ marks n s, ∃ a b, m.cell = (s.shift a b).cell ∧ 2 * b + 1 = 3 ^ n := by
  induction n generalizing s with
  | zero =>
    refine ⟨_, List.mem_singleton_self _, 1, 0, ?_, rfl⟩
    rw [← Stance.advance_eq_shift]
  | succ n ih =>
    obtain ⟨m, hm, a, b, hcell, hb⟩ := ih (s.shift (3 ^ n) (3 ^ n))
    rw [Stance.shift_shift] at hcell
    rw [marks_succ]
    exact ⟨m, by simp [hm], _, _, hcell, by omega⟩

theorem box_path (n : Nat) (p : Cell) :
    Mark.Box ((Walker.place p .north).marks (path n))
      (p.x - (3 ^ n - 1) / 2) p.x (p.y + 1) (p.y + 3 ^ n) := by
  change Mark.Box (marks n ⟨p, .north⟩) _ _ _ _
  have cell (a b : Int) : ((⟨p, .north⟩ : Stance).shift a b).cell = ⟨p.x - b, p.y + a⟩ := by
    ext <;> simp [Stance.shift, Cell.offset, Direction.step, Direction.left]
    omega
  have bounds (m : Mark) (hm : m ∈ marks n ⟨p, .north⟩) :
      (p.x - (3 ^ n - 1) / 2 ≤ m.cell.x ∧ m.cell.x ≤ p.x) ∧
        p.y + 1 ≤ m.cell.y ∧ m.cell.y ≤ p.y + 3 ^ n := by
    obtain ⟨a, b, hcell, ha, hb⟩ := exists_shift_of_mem_marks hm
    rw [hcell, cell]
    dsimp only
    omega
  obtain ⟨first, hfirst, firstCell⟩ := exists_mark_first n ⟨p, .north⟩
  obtain ⟨last, hlast, lastCell⟩ := exists_mark_last n ⟨p, .north⟩
  obtain ⟨wide, hwide, a, b, wideCell, hb⟩ := exists_mark_left n ⟨p, .north⟩
  rw [cell] at firstCell lastCell wideCell
  have left : wide.cell.x = p.x - (3 ^ n - 1) / 2 := by
    rw [wideCell]
    dsimp only
    omega
  have right : first.cell.x = p.x := by
    rw [firstCell]
    exact Int.sub_zero p.x
  exact Mark.box_of_bounds bounds ⟨wide, hwide, left⟩ ⟨first, hfirst, right⟩
    ⟨first, hfirst, by rw [firstCell]⟩ ⟨last, hlast, by rw [lastCell]⟩

theorem walk?_place (n : Nat) (p : Cell) :
    (Walker.place p .north).walk? (path n) = some (.place ⟨p.x, p.y + 3 ^ n⟩ .north) := by
  refine (walk?_path n ⟨p, .north⟩).trans ?_
  simp [Walker.place, Stance.shift, Cell.offset, Direction.step, Direction.left]

theorem exists_lines_definition (n : Nat) (representable : max 3 (5 ^ n) ≤ StartPosition.farthest) :
    ∃ lines, (Render.definition {} Preset.kochCurve.definition n).value =
        .ok (String.ofList (Canvas.unlines lines)) ∧
      lines.length = 3 ^ n ∧
        ∀ line ∈ lines, line.length = (3 ^ n + 1) / 2 ∧ '\n' ∉ line := by
  have room : 3 ^ n < max 3 (5 ^ n) := by
    cases n with
    | zero => decide
    | succ n =>
      have larger : 3 ^ (n + 1) < 5 ^ (n + 1) := Nat.pow_lt_pow_left (by decide) n.succ_ne_zero
      omega
  have sized : Render.side {} Preset.curveCommands.interpreter
      (Preset.kochCurve.grammar.expand n) = max 3 (5 ^ n) := by
    rw [Render.side, movements_expand]
  generalize max 3 (5 ^ n) = side at representable room sized
  let corner : Cell := ⟨side - 1, 0⟩
  have start : corner.wrap = Preset.kochCurve.start.origin side :=
    StartPosition.bottomRight.wrap_cell representable
  have power : (3 : Int) ^ n = (3 ^ n : Nat) := by simp
  have columns : 0 ≤ corner.x - (3 ^ n - 1) / 2 ∧ corner.x < side := by
    change 0 ≤ (side - 1 : Int) - _ ∧ (side - 1 : Int) < side
    omega
  have rows : 0 ≤ corner.y + 1 ∧ corner.y + 3 ^ n < side := by
    change 0 ≤ (0 : Int) + 1 ∧ (0 : Int) + _ < side
    omega
  obtain ⟨lines, drawn, height, line_of_mem⟩ := Render.exists_lines {}
    (fun side => Preset.kochCurve.start.origin side) (reads_expand n) sized start representable
    (walk?_place n corner) (box_path n corner) columns rows
  refine ⟨lines, (Render.value_definition ..).trans drawn, by omega, ?_⟩
  intro line hline
  obtain ⟨⟨width, plain⟩, -⟩ := line_of_mem line hline
  exact ⟨by omega, plain⟩

/-- The Koch curve of generation `n` runs straight ahead and to the left of its start, in a box of
`3 ^ n` rows and half as many columns that it touches on all sides. It is drawn wherever its canvas
can be addressed. -/
theorem generation_fills_box (n : Nat) :
    let w : Word := Preset.kochCurve.grammar.expand n
    let i := Preset.kochCurve.commands.interpreter
    i.movements w = 5 ^ n ∧
      (∃ commands, i.Reads w commands ∧ ∀ p : Cell,
        (Walker.place p .north).walk? commands = some (.place ⟨p.x, p.y + 3 ^ n⟩ .north) ∧
          Mark.Box ((Walker.place p .north).marks commands)
            (p.x - (3 ^ n - 1) / 2) p.x (p.y + 1) (p.y + 3 ^ n)) ∧
      (max 3 (5 ^ n) ≤ StartPosition.farthest →
        ∃ lines, (Render.definition {} Preset.kochCurve.definition n).value =
            .ok (String.ofList (Canvas.unlines lines)) ∧
          lines.length = 3 ^ n ∧
            ∀ line ∈ lines, line.length = (3 ^ n + 1) / 2 ∧ '\n' ∉ line) := by
  intro w i
  exact ⟨movements_expand n, ⟨path n, reads_expand n, fun p => ⟨walk?_place n p, box_path n p⟩⟩,
    exists_lines_definition n⟩

theorem generation_fills_box_four :
    max 3 (5 ^ 4) ≤ StartPosition.farthest ∧
      ∃ lines, (Render.definition {} Preset.kochCurve.definition 4).value =
          .ok (String.ofList (Canvas.unlines lines)) ∧
        lines.length = 81 ∧ ∀ line ∈ lines, line.length = 41 ∧ '\n' ∉ line :=
  ⟨by decide, (generation_fills_box 4).2.2 (by decide)⟩

end TurtleArt.KochCurve
