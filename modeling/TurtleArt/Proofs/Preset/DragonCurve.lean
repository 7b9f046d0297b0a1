import Mathlib.Algebra.Order.Ring.Nat
import TurtleArt.Preset
import TurtleArt.Proofs.Grammar
import TurtleArt.Proofs.Render.Picture
import TurtleArt.Proofs.Render.Sizing
import TurtleArt.Proofs.Turtle.Excursion

/-! The dragon curve in every generation. Two curves grow out of each other: one is the word of the
preset, the other is the same with the turns in reverse, and each consists of both of the generation
before. The square that the canvas offers around its center doubles with every generation. So does,
from the third generation on, all that is known of the curve: how far it gets and where it ends. The
generations before are walked step by step. -/

namespace TurtleArt.DragonCurve

open Interpreter Walker

mutual

def leftCurve : Nat → List Command
  | 0 => [.drawLine]
  | n + 1 => leftCurve n ++ .turnLeft :: (rightCurve n ++ [.turnLeft])

def rightCurve : Nat → List Command
  | 0 => [.drawLine]
  | n + 1 => .turnRight :: (leftCurve n ++ .turnRight :: rightCurve n)

end

theorem leftCurve_succ (n : Nat) :
    leftCurve (n + 1) = leftCurve n ++ .turnLeft :: (rightCurve n ++ [.turnLeft]) := rfl

theorem rightCurve_succ (n : Nat) :
    rightCurve (n + 1) = .turnRight :: (leftCurve n ++ .turnRight :: rightCurve n) := rfl

theorem reads_curves (n : Nat) :
    let g := Preset.dragonCurve.grammar
    let i := Preset.curveCommands.interpreter
    i.Reads (g.strip (['F'] ++ g.grown ['X'] n)) (leftCurve n) ∧
      i.Reads (g.strip (g.grown ['Y'] n ++ ['F'])) (rightCurve n) := by
  intro g i
  have left : i.Reads (g.strip ['+']) [.turnLeft] := rfl
  have right : i.Reads (g.strip ['-']) [.turnRight] := rfl
  have line (n : Nat) : g.grown ['F'] n = ['F'] := Grammar.grown_of_fixed rfl n
  have plus (n : Nat) : g.grown ['+'] n = ['+'] := Grammar.grown_of_fixed rfl n
  have minus (n : Nat) : g.grown ['-'] n = ['-'] := Grammar.grown_of_fixed rfl n
  induction n with
  | zero => exact ⟨rfl, rfl⟩
  | succ n ih =>
    have outward : ['F'] ++ g.grown ['X'] (n + 1) =
        (['F'] ++ g.grown ['X'] n) ++ (['+'] ++ ((g.grown ['Y'] n ++ ['F']) ++ ['+'])) := by
      rw [Grammar.grown_symbol_succ, show g.rewrite 'X' = ['X', '+', 'Y', 'F', '+'] from rfl]
      simp only [Grammar.grown_cons_cons, line, plus, List.append_assoc]
    have inward : g.grown ['Y'] (n + 1) ++ ['F'] =
        ['-'] ++ ((['F'] ++ g.grown ['X'] n) ++ (['-'] ++ (g.grown ['Y'] n ++ ['F']))) := by
      rw [Grammar.grown_symbol_succ, show g.rewrite 'Y' = ['-', 'F', 'X', '-', 'Y'] from rfl]
      simp only [Grammar.grown_cons_cons, line, minus, List.append_assoc]
    -- Without the scaffolding, each piece in brackets reads as one curve of the generation before.
    obtain ⟨hleft, hright⟩ := ih
    rw [outward, inward]
    simp only [Grammar.strip_append _ _ (_ ++ _), Grammar.strip_append _ (_ ++ _) _]
    exact ⟨hleft.append (left.append (hright.append left)),
      right.append (hleft.append (right.append hright))⟩

theorem reads_expand (n : Nat) :
    Preset.curveCommands.interpreter.Reads (Preset.dragonCurve.grammar.expand n) (leftCurve n) := by
  have parts : Preset.dragonCurve.grammar.grown ['F', 'X'] n =
      ['F'] ++ Preset.dragonCurve.grammar.grown ['X'] n := by
    rw [Grammar.grown_cons_cons, Grammar.grown_of_fixed rfl]
  have outward := (reads_curves n).1
  rw [← parts] at outward
  exact outward

theorem countP_isDrawing_curves (n : Nat) :
    (leftCurve n).countP Command.isDrawing = 2 ^ n ∧
      (rightCurve n).countP Command.isDrawing = 2 ^ n := by
  induction n with
  | zero => exact ⟨rfl, rfl⟩
  | succ n ih =>
    obtain ⟨hleft, hright⟩ := ih
    rw [leftCurve_succ, rightCurve_succ]
    simp only [List.countP_append, List.countP_cons, List.countP_nil, Command.isDrawing, hleft,
      hright]
    constructor <;> simp <;> omega

theorem movements_expand (n : Nat) :
    Preset.curveCommands.interpreter.movements (Preset.dragonCurve.grammar.expand n) = 2 ^ n := by
  have flags : Preset.curveCommands.movement =
      Preset.curveCommands.ops.keysWhere Command.isDrawing := by decide
  rw [Render.movements_eq_countP flags (reads_expand n), (countP_isDrawing_curves n).1]

variable {n radius final : Nat}

theorem excursion_succ
    (h : Excursion radius final (leftCurve n) ∧ Excursion radius final (rightCurve n)) :
    Excursion (final + radius) (final + final) (leftCurve (n + 1)) ∧
      Excursion (final + radius) (final + final) (rightCurve (n + 1)) := by
  obtain ⟨hleft, hright⟩ := h
  have farther : max radius (final + radius) ≤ final + radius := by omega
  have outward := hleft.append hright.thenLeft.turnLeft
  have inward := (hleft.append hright.turnRight).turnRight
  exact ⟨outward.mono farther (Nat.le_refl _), inward.mono farther (Nat.le_refl _)⟩

theorem excursion_three :
    Excursion 3 4 (leftCurve 3) ∧ Excursion 3 4 (rightCurve 3) := by
  constructor
  all_goals
    apply excursion_of_origin
    intro d hd
    cases d
    case north | east | south | west => exact ⟨_, rfl, rfl, by decide, by decide, by decide⟩
    all_goals exact absurd hd (by decide)

theorem excursion_curves (n : Nat) :
    Excursion (2 ^ n) (2 ^ n) (leftCurve n) ∧ Excursion (2 ^ n) (2 ^ n) (rightCurve n) := by
  induction n with
  | zero => exact ⟨excursion_drawLine, excursion_drawLine⟩
  | succ n ih =>
    rw [Nat.pow_succ, Nat.mul_two]
    exact excursion_succ ih

/-- In the third generation the radius is one less than the bound on the end, and it stays so. -/
theorem excursion_curves_add_three (n : Nat) :
    Excursion (2 ^ (n + 2) - 1) (2 ^ (n + 2)) (leftCurve (n + 3)) ∧
      Excursion (2 ^ (n + 2) - 1) (2 ^ (n + 2)) (rightCurve (n + 3)) := by
  induction n with
  | zero => exact excursion_three
  | succ n ih =>
    have doubled : 2 ^ (n + 1 + 2) = 2 ^ (n + 2) + 2 ^ (n + 2) := by
      rw [← Nat.mul_two]
      rfl
    have positive : 0 < 2 ^ (n + 2) := Nat.two_pow_pos _
    have radius : 2 ^ (n + 1 + 2) - 1 = 2 ^ (n + 2) + (2 ^ (n + 2) - 1) := by omega
    rw [radius, doubled]
    exact excursion_succ ih

def InSquare (side : Nat) (z : Int) : Prop :=
  -(side / 2 : Nat) ≤ z ∧ z ≤ side - 1 - (side / 2 : Nat)

instance (side : Nat) (z : Int) : Decidable (InSquare side z) :=
  inferInstanceAs (Decidable (_ ∧ _))

theorem inSquare_of_mem_marks {n : Nat} {p : Cell} {m : Mark}
    (h : m ∈ (place p .north).marks (leftCurve n)) :
    InSquare (max 3 (2 ^ n)) (m.cell.x - p.x) ∧ InSquare (max 3 (2 ^ n)) (m.cell.y - p.y) := by
  by_cases late : 3 ≤ n
  · obtain ⟨k, rfl⟩ := Nat.exists_eq_add_of_le' late
    have near := ((excursion_curves_add_three k).1 p .north (.inl rfl)).2 m h
    have bounds := Cell.distance_le_iff.mp near
    have doubled : 2 ^ (k + 3) = 2 * 2 ^ (k + 2) := Nat.pow_succ'
    have large : 4 ≤ 2 ^ (k + 2) := Nat.pow_le_pow_right (n := 2) (by decide) (Nat.le_add_left 2 k)
    unfold InSquare
    rw [doubled]
    generalize 2 ^ (k + 2) = half at bounds large
    omega
  -- What is known of the radius before is too coarse for the square, so the few marks are checked.
  · have early : ∀ k < 3, ∀ m ∈ (place ⟨0, 0⟩ .north).marks (leftCurve k),
        InSquare (max 3 (2 ^ k)) m.cell.x ∧ InSquare (max 3 (2 ^ k)) m.cell.y := by decide
    rw [marks_place] at h
    obtain ⟨m, hm, rfl⟩ := List.mem_map.mp h
    have bounds := early n (Nat.lt_of_not_le late) m hm
    simpa [Mark.offset, Cell.offset] using bounds

theorem exists_art_definition (n : Nat) (representable : max 3 (2 ^ n) ≤ StartPosition.farthest) :
    ∃ art, (Render.definition {} Preset.dragonCurve.definition n).value = .ok art := by
  have sized : Render.side {} Preset.curveCommands.interpreter
      (Preset.dragonCurve.grammar.expand n) = max 3 (2 ^ n) := by
    rw [Render.side, movements_expand]
  let center : Cell := StartPosition.central.cell (max 3 (2 ^ n))
  have start : center.wrap = Preset.dragonCurve.start.origin (max 3 (2 ^ n)) :=
    StartPosition.central.wrap_cell representable
  obtain ⟨⟨q, e, hwalk, -⟩, -⟩ := (excursion_curves n).1 center .north (.inl rfl)
  have inside : ∀ m ∈ (place center .north).marks (leftCurve n),
      m.cell.Within (max 3 (2 ^ n)) := by
    intro m hm
    have bounds := inSquare_of_mem_marks hm
    simp only [center, StartPosition.cell, InSquare] at bounds
    unfold Cell.Within
    omega
  obtain ⟨u, -, drawn⟩ := Render.value_word_of_clears {}
    (fun side => Preset.dragonCurve.start.origin side) (reads_expand n) sized start
    (clears_of_within hwalk inside representable)
  exact ⟨u.canvas.draw, (Render.value_definition ..).trans drawn⟩

/-- The dragon curve stays in the square around its start that a canvas with a cell for each of its
`2 ^ n` movements has around its center. It is therefore drawn wherever that canvas can be
addressed. -/
theorem generation_fits (n : Nat) :
    let w : Word := Preset.dragonCurve.grammar.expand n
    let i := Preset.dragonCurve.commands.interpreter
    let side := max 3 (2 ^ n)
    i.movements w = 2 ^ n ∧
      (∃ commands, i.Reads w commands ∧ ∀ (p : Cell) (k : Nat),
        ∃ v, (place p .north).walk? (commands.take k) = some v ∧
          (-(side / 2 : Nat) ≤ v.stance.cell.x - p.x ∧
            v.stance.cell.x - p.x ≤ side - 1 - (side / 2 : Nat)) ∧
          -(side / 2 : Nat) ≤ v.stance.cell.y - p.y ∧
            v.stance.cell.y - p.y ≤ side - 1 - (side / 2 : Nat)) ∧
      (side ≤ StartPosition.farthest →
        ∃ art, (Render.definition {} Preset.dragonCurve.definition n).value = .ok art) := by
  intro w i side
  refine ⟨movements_expand n, ⟨leftCurve n, reads_expand n, ?_⟩, exists_art_definition n⟩
  intro p k
  obtain ⟨⟨q, e, hwalk, -⟩, -⟩ := (excursion_curves n).1 p .north (.inl rfl)
  obtain ⟨v, hv, standing⟩ := exists_walk_take hwalk k
  refine ⟨v, hv, ?_⟩
  rcases standing with start | ⟨m, hm, hcell⟩
  · rw [start]
    omega
  · rw [← hcell]
    exact inSquare_of_mem_marks hm

theorem generation_fits_ten :
    max 3 (2 ^ 10) ≤ StartPosition.farthest ∧
      ∃ art, (Render.definition {} Preset.dragonCurve.definition 10).value = .ok art :=
  ⟨by decide, (generation_fits 10).2.2 (by decide)⟩

end TurtleArt.DragonCurve
