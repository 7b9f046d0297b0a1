import Mathlib.Tactic.Ring
import TurtleArt.Preset
import TurtleArt.Proofs.Grammar
import TurtleArt.Proofs.Render.Picture
import TurtleArt.Proofs.Render.Sizing
import TurtleArt.Proofs.Turtle.Frame

/-! The binary tree in every generation: a trunk and, at its end, two trees of the generation
before, an eighth of a turn to the left and to the right. An eighth of a turn does not map cells to
cells, so the trees that face one way tell little of those that face another. What all of them share
is how far they get: as many moves as the path along the trunks has, in the direction of the root
and in those next to it. -/

namespace TurtleArt.BinaryTree

open Interpreter

def path : Nat → List Command
  | 0 => [.drawLeaf]
  | n + 1 => List.replicate (2 ^ n) .drawLine ++ .pushBranch :: (path n ++ .popBranch :: path n)

theorem path_succ (n : Nat) :
    path (n + 1) = List.replicate (2 ^ n) .drawLine ++
      .pushBranch :: (path n ++ .popBranch :: path n) := rfl

theorem grown_trunk (n : Nat) :
    Preset.binaryTree.grammar.grown ['1'] n = List.replicate (2 ^ n) '1' := by
  induction n with
  | zero => rfl
  | succ n ih =>
    rw [Grammar.grown_symbol_succ, show Preset.binaryTree.grammar.rewrite '1' = ['1', '1'] from rfl,
      Grammar.grown_cons_cons, ih, List.replicate_append_replicate, ← Nat.mul_two, Nat.pow_succ]

theorem reads_path (n : Nat) :
    Preset.binaryTree.commands.interpreter.Reads (Preset.binaryTree.grammar.grown ['0'] n)
      (path n) := by
  have trunk (k : Nat) : Preset.binaryTree.commands.interpreter.Reads (List.replicate k '1')
      (List.replicate k .drawLine) := by
    rw [Reads, List.map_replicate, List.map_replicate]
    rfl
  have opening : Preset.binaryTree.commands.interpreter.Reads ['['] [.pushBranch] := rfl
  have closing : Preset.binaryTree.commands.interpreter.Reads [']'] [.popBranch] := rfl
  induction n with
  | zero => rfl
  | succ n ih =>
    have rule : Preset.binaryTree.grammar.rewrite '0' = ['1', '[', '0', ']', '0'] := rfl
    have opens := Grammar.grown_of_fixed (g := Preset.binaryTree.grammar) (c := '[') rfl n
    have closes := Grammar.grown_of_fixed (g := Preset.binaryTree.grammar) (c := ']') rfl n
    rw [Grammar.grown_symbol_succ, rule]
    simp only [Grammar.grown_cons_cons, grown_trunk, opens, closes]
    exact (trunk _).append (opening.append (ih.append (closing.append ih)))

theorem reads_expand (n : Nat) :
    Preset.binaryTree.commands.interpreter.Reads (Preset.binaryTree.grammar.expand n)
      (path n) := by
  rw [Grammar.expand_eq_grown rfl]
  exact reads_path n

theorem two_mul_countP_isDrawing_path (n : Nat) :
    2 * (path n).countP Command.isDrawing = 2 ^ n * (n + 2) := by
  induction n with
  | zero => rfl
  | succ n ih =>
    have trunk : (List.replicate (2 ^ n) Command.drawLine).countP Command.isDrawing = 2 ^ n := by
      simp [List.countP_replicate, Command.isDrawing]
    have parts : (path (n + 1)).countP Command.isDrawing =
        2 ^ n + 2 * (path n).countP Command.isDrawing := by
      rw [path_succ, List.countP_append, trunk]
      simp [Command.isDrawing]
      omega
    calc 2 * (path (n + 1)).countP Command.isDrawing
        = 2 * 2 ^ n + 2 * (2 * (path n).countP Command.isDrawing) := by rw [parts, Nat.mul_add]
      _ = 2 * 2 ^ n + 2 * (2 ^ n * (n + 2)) := by rw [ih]
      _ = 2 ^ (n + 1) * (n + 1 + 2) := by ring

theorem movements_expand (n : Nat) :
    Preset.binaryTree.commands.interpreter.movements (Preset.binaryTree.grammar.expand n) =
      2 ^ n * (n + 2) / 2 := by
  have flags : Preset.binaryTree.commands.movement =
      Preset.binaryTree.commands.ops.keysWhere Command.isDrawing := by decide
  have double := two_mul_countP_isDrawing_path n
  rw [Render.movements_eq_countP flags (reads_expand n)]
  omega

inductive Covers : Nat → Stance → Cell → Prop
  | leaf {s : Stance} : Covers 0 s (s.shift 1 0).cell
  | trunk {n : Nat} {s : Stance} {k : Nat} (pos : 0 < k) (le : k ≤ 2 ^ n) :
      Covers (n + 1) s (s.shift k 0).cell
  | left {n : Nat} {s : Stance} {q : Cell} (h : Covers n (s.shift (2 ^ n : Nat) 0).left q) :
      Covers (n + 1) s q
  | right {n : Nat} {s : Stance} {q : Cell} (h : Covers n (s.shift (2 ^ n : Nat) 0).right q) :
      Covers (n + 1) s q

section Walk

variable (n : Nat) (s : Stance) (saved : List Stance)

theorem exists_walk_path :
    ∃ q d, (⟨s, saved⟩ : Walker).walk? (path n) = some ⟨⟨q, d⟩, saved⟩ ∧ Covers n s q := by
  induction n generalizing s saved with
  | zero =>
    refine ⟨(s.shift 1 0).cell, s.heading, ?_, .leaf⟩
    rw [← Stance.advance_eq_shift]
    rfl
  | succ n ih =>
    let fork := s.shift (2 ^ n : Nat) 0
    obtain ⟨q, d, hleft, -⟩ := ih fork.left (fork :: saved)
    obtain ⟨q', d', hright, hq'⟩ := ih fork.right saved
    refine ⟨q', d', ?_, .right hq'⟩
    rw [path_succ, Walker.walk?_append, Walker.walk?_line, Option.bind_some, Walker.walk?_cons]
    change ((⟨fork.left, fork :: saved⟩ : Walker).walk? (path n ++ .popBranch :: path n)) = _
    rw [Walker.walk?_append, hleft, Option.bind_some, Walker.walk?_cons]
    exact hright

theorem exists_mark_path_iff (q : Cell) :
    (∃ m ∈ (⟨s, saved⟩ : Walker).marks (path n), m.cell = q) ↔ Covers n s q := by
  induction n generalizing s saved with
  | zero =>
    have only : (⟨s, saved⟩ : Walker).marks (path 0) =
        [⟨(s.shift 1 0).cell, s.heading.arrow⟩] := by
      rw [← Stance.advance_eq_shift]
      rfl
    simp only [only, List.mem_singleton, exists_eq_left]
    constructor
    · rintro rfl
      exact .leaf
    · rintro ⟨⟩
      rfl
  | succ n ih =>
    let fork := s.shift (2 ^ n : Nat) 0
    obtain ⟨tip, d, hleft, htip⟩ := exists_walk_path n fork.left (fork :: saved)
    have parts : (⟨s, saved⟩ : Walker).marks (path (n + 1)) =
        (⟨s, saved⟩ : Walker).marks (List.replicate (2 ^ n) .drawLine) ++
          ⟨fork.cell, fork.heading.arrow⟩ ::
            ((⟨fork.left, fork :: saved⟩ : Walker).marks (path n) ++
              ⟨tip, d.arrow⟩ :: (⟨fork.right, saved⟩ : Walker).marks (path n)) := by
      rw [path_succ, Walker.marks_append (Walker.walk?_line _ s saved),
        Walker.marks_cons (v := ⟨fork.left, fork :: saved⟩) rfl, Walker.marks_append hleft,
        Walker.marks_cons (v := ⟨fork.right, saved⟩) rfl]
      rfl
    simp only [parts, List.mem_append, List.mem_cons, or_and_right, exists_or, exists_eq_left, ih,
      Walker.exists_mark_line_iff]
    constructor
    -- Opening the branch marks the end of the trunk again, closing it the tip of the left tree.
    · rintro (⟨k, pos, le, rfl⟩ | rfl | h | rfl | h)
      · exact .trunk pos le
      · exact .trunk (Nat.two_pow_pos n) (Nat.le_refl _)
      · exact .left h
      · exact .left htip
      · exact .right h
    · intro h
      cases h with
      | trunk pos le => exact .inl ⟨_, pos, le, rfl⟩
      | left h => exact .inr (.inr (.inl h))
      | right h => exact .inr (.inr (.inr (.inr h)))

end Walk

variable {n : Nat} {s : Stance} {p q : Cell}

theorem Covers.distance_le (h : Covers n s q) : s.cell.distance q ≤ 2 ^ n := by
  induction h with
  | leaf => exact Nat.le_of_eq (Stance.distance_shift _ 1)
  | @trunk n s k pos le =>
    rw [Stance.distance_shift, Nat.pow_succ]
    omega
  | @left n s q h ih | @right n s q h ih =>
    have trunk := Stance.distance_shift s (2 ^ n)
    have far := Cell.distance_triangle s.cell (s.shift (2 ^ n : Nat) 0).cell q
    change (s.shift (2 ^ n : Nat) 0).cell.distance q ≤ 2 ^ n at ih
    rw [Nat.pow_succ]
    omega

theorem exists_covers_along {e : Direction} (axial : e.Axial) (n : Nat) (s : Stance)
    (h : e.Toward s.heading) :
    ∃ q, Covers n s q ∧ q.along e = s.cell.along e + (2 ^ n : Nat) := by
  induction n generalizing s with
  | zero => exact ⟨_, .leaf, s.along_shift axial h 1⟩
  | succ n ih =>
    have trunk := s.along_shift axial h (2 ^ n)
    rw [Nat.pow_succ]
    rcases h.fork with fork | fork
    · obtain ⟨q, hq, along⟩ := ih (s.shift (2 ^ n : Nat) 0).left fork
      refine ⟨q, .left hq, ?_⟩
      change q.along e = (s.shift (2 ^ n : Nat) 0).cell.along e + _ at along
      omega
    · obtain ⟨q, hq, along⟩ := ih (s.shift (2 ^ n : Nat) 0).right fork
      refine ⟨q, .right hq, ?_⟩
      change q.along e = (s.shift (2 ^ n : Nat) 0).cell.along e + _ at along
      omega

theorem Covers.mirror (h : Covers n s q) (column : Int) :
    Covers n (s.mirror column) (q.mirror column) := by
  have straight (s : Stance) (k : Int) : (s.shift k 0).mirror column = (s.mirror column).shift k 0 :=
    s.mirror_shift column k 0
  induction h with
  | @leaf s =>
    change Covers 0 _ ((s.shift 1 0).mirror column).cell
    rw [straight]
    exact .leaf
  | @trunk n s k pos le =>
    change Covers (n + 1) _ ((s.shift k 0).mirror column).cell
    rw [straight]
    exact .trunk pos le
  | left h ih =>
    rw [Stance.mirror_left, straight] at ih
    exact .right ih
  | right h ih =>
    rw [Stance.mirror_right, straight] at ih
    exact .left ih

theorem covers_mirror_iff : Covers n ⟨p, .north⟩ (q.mirror p.x) ↔ Covers n ⟨p, .north⟩ q := by
  have upright : (⟨p, .north⟩ : Stance).mirror p.x = ⟨p, .north⟩ := by
    ext
    · simp only [Stance.mirror, Cell.mirror]
      omega
    · rfl
    · rfl
  constructor
  · intro h
    have back := h.mirror p.x
    rwa [upright, Cell.mirror_mirror] at back
  · intro h
    have across := h.mirror p.x
    rwa [upright] at across

/-- A tree that leads upwards, if aslant, does not come down below its root: what may hang down from
its trunk is no longer than the trunk. -/
theorem Covers.le_y (h : Covers n s q) (up : Direction.north.Toward s.heading) :
    s.cell.y ≤ q.y := by
  have along (k : Nat) : (s.shift k 0).cell.y = s.cell.y + k := by
    simpa [Cell.along, Direction.step] using s.along_shift (e := .north) (.inl rfl) up k
  cases h with
  | leaf =>
    have up : (s.shift 1 0).cell.y = s.cell.y + 1 := along 1
    omega
  | @trunk n _ k pos le =>
    have up := along k
    omega
  | @left n _ _ h | @right n _ _ h =>
    have trunk := along (2 ^ n)
    have bounds := Cell.distance_le_iff.mp h.distance_le
    change _ ∧ (s.shift (2 ^ n : Nat) 0).cell.y - _ ≤ q.y ∧ _ at bounds
    omega

theorem shift_north (p : Cell) (k : Nat) :
    ((⟨p, .north⟩ : Stance).shift k 0).cell = ⟨p.x, p.y + k⟩ := by
  ext <;> simp [Stance.shift, Cell.offset, Direction.step]

theorem Covers.of_north (h : Covers (n + 1) ⟨p, .north⟩ q) :
    (∃ k : Nat, 0 < k ∧ k ≤ 2 ^ n ∧ q = ⟨p.x, p.y + k⟩) ∨
      ∃ d, Direction.north.Toward d ∧ Covers n ⟨⟨p.x, p.y + (2 ^ n : Nat)⟩, d⟩ q := by
  rw [← shift_north p (2 ^ n)]
  cases h with
  | trunk pos le => exact .inl ⟨_, pos, le, shift_north p _⟩
  | left h => exact .inr ⟨_, .inl rfl, h⟩
  | right h => exact .inr ⟨_, .inr (.inr rfl), h⟩

theorem Covers.bounds (h : Covers n ⟨p, .north⟩ q) :
    (p.x - (2 ^ n / 2 : Nat) ≤ q.x ∧ q.x ≤ p.x + (2 ^ n / 2 : Nat)) ∧
      p.y + 1 ≤ q.y ∧ q.y ≤ p.y + (2 ^ n : Nat) := by
  cases n with
  | zero =>
    have leaf : ((⟨p, .north⟩ : Stance).shift 1 0).cell = ⟨p.x, p.y + 1⟩ := shift_north p 1
    cases h
    rw [leaf]
    dsimp only
    omega
  | succ n =>
    have long : 0 < 2 ^ n := Nat.two_pow_pos n
    rcases h.of_north with ⟨k, pos, le, rfl⟩ | ⟨d, up, h⟩
    · dsimp only
      omega
    · have near := Cell.distance_le_iff.mp h.distance_le
      have above := h.le_y up
      dsimp only at near above
      omega

theorem covers_bottom (n : Nat) (p : Cell) : Covers n ⟨p, .north⟩ ⟨p.x, p.y + 1⟩ := by
  have first : ((⟨p, .north⟩ : Stance).shift (1 : Nat) 0).cell = ⟨p.x, p.y + 1⟩ :=
    shift_north p 1
  rw [← first]
  cases n with
  | zero => exact .leaf
  | succ n => exact .trunk Nat.one_pos (Nat.two_pow_pos n)

theorem exists_covers_top (n : Nat) (p : Cell) :
    ∃ q, Covers n ⟨p, .north⟩ q ∧ q.y = p.y + (2 ^ n : Nat) := by
  have upright : Direction.north.Toward .north := .inr (.inl rfl)
  obtain ⟨q, hq, along⟩ := exists_covers_along (.inl rfl) n ⟨p, .north⟩ upright
  refine ⟨q, hq, ?_⟩
  simpa [Cell.along, Direction.step] using along

theorem exists_covers_left (n : Nat) (p : Cell) :
    ∃ q, Covers n ⟨p, .north⟩ q ∧ q.x = p.x - (2 ^ n / 2 : Nat) := by
  cases n with
  | zero => exact ⟨_, covers_bottom 0 p, by simp⟩
  | succ n =>
    -- The left one of the two branches leads to the west, too.
    obtain ⟨q, hq, along⟩ := exists_covers_along (e := .west) (.inr rfl) n
      ((⟨p, .north⟩ : Stance).shift (2 ^ n : Nat) 0).left (.inr (.inr rfl))
    refine ⟨q, .left hq, ?_⟩
    change Cell.along .west q =
      ((⟨p, .north⟩ : Stance).shift (2 ^ n : Nat) 0).cell.along .west + _ at along
    rw [shift_north] at along
    simp only [Cell.along, Direction.step] at along
    omega

theorem exists_mark_mirror_iff (n : Nat) (p : Cell) (x y : Int) :
    (∃ m ∈ (Walker.place p .north).marks (path n), m.cell = ⟨p.x - x, y⟩) ↔
      ∃ m ∈ (Walker.place p .north).marks (path n), m.cell = ⟨p.x + x, y⟩ := by
  have across : (⟨p.x - x, y⟩ : Cell) = Cell.mirror p.x ⟨p.x + x, y⟩ := by
    ext
    · simp only [Cell.mirror]
      omega
    · rfl
  have marked := exists_mark_path_iff n ⟨p, .north⟩ []
  calc (∃ m ∈ (Walker.place p .north).marks (path n), m.cell = ⟨p.x - x, y⟩)
      ↔ Covers n ⟨p, .north⟩ (Cell.mirror p.x ⟨p.x + x, y⟩) := by
        rw [across]
        exact marked _
    _ ↔ Covers n ⟨p, .north⟩ ⟨p.x + x, y⟩ := covers_mirror_iff
    _ ↔ ∃ m ∈ (Walker.place p .north).marks (path n), m.cell = ⟨p.x + x, y⟩ := (marked _).symm

theorem box_path (n : Nat) (p : Cell) :
    Mark.Box ((Walker.place p .north).marks (path n))
      (p.x - (2 ^ n / 2 : Nat)) (p.x + (2 ^ n / 2 : Nat)) (p.y + 1) (p.y + (2 ^ n : Nat)) := by
  have marked (q : Cell) :
      (∃ m ∈ (Walker.place p .north).marks (path n), m.cell = q) ↔ Covers n ⟨p, .north⟩ q :=
    exists_mark_path_iff n ⟨p, .north⟩ [] q
  have bounds (m : Mark) (hm : m ∈ (Walker.place p .north).marks (path n)) :=
    ((marked m.cell).mp ⟨m, hm, rfl⟩).bounds
  obtain ⟨q, hq, hleft⟩ := exists_covers_left n p
  have hright : (q.mirror p.x).x = p.x + (2 ^ n / 2 : Nat) := by
    simp only [Cell.mirror]
    omega
  obtain ⟨t, ht, htop⟩ := exists_covers_top n p
  obtain ⟨left, left_mem, rfl⟩ := (marked q).mpr hq
  obtain ⟨right, right_mem, right_cell⟩ := (marked _).mpr (covers_mirror_iff.mpr hq)
  obtain ⟨bottom, bottom_mem, bottom_cell⟩ := (marked _).mpr (covers_bottom n p)
  obtain ⟨top, top_mem, rfl⟩ := (marked t).mpr ht
  exact Mark.box_of_bounds bounds ⟨left, left_mem, hleft⟩
    ⟨right, right_mem, by rw [right_cell, hright]⟩ ⟨bottom, bottom_mem, by rw [bottom_cell]⟩
    ⟨top, top_mem, htop⟩

theorem height_lt_side (n : Nat) : 2 ^ n < max 3 (2 ^ n * (n + 2) / 2) := by
  cases n with
  | zero => decide
  | succ n =>
    have double : 2 ^ (n + 1) * (n + 1 + 2) = 2 * (2 ^ n * n + 3 * 2 ^ n) := by ring
    have long : 0 < 2 ^ n := Nat.two_pow_pos n
    rw [double, Nat.mul_div_cancel_left _ Nat.two_pos, Nat.pow_succ]
    omega

theorem exists_walk_place (n : Nat) (p : Cell) :
    ∃ v, (Walker.place p .north).walk? (path n) = some v ∧ v.saved = [] := by
  obtain ⟨q, d, hwalk, -⟩ := exists_walk_path n ⟨p, .north⟩ []
  exact ⟨_, hwalk, rfl⟩

theorem exists_lines_definition (n : Nat)
    (representable : max 3 (2 ^ n * (n + 2) / 2) ≤ StartPosition.farthest) :
    ∃ lines, (Render.definition {} Preset.binaryTree.definition n).value =
        .ok (String.ofList (Canvas.unlines lines)) ∧
      lines.length = 2 ^ n ∧
        ∀ line ∈ lines, line.length = (if n = 0 then 1 else 2 ^ n + 1) ∧ '\n' ∉ line ∧
          (line.map Unicode.isBlank).reverse = line.map Unicode.isBlank := by
  have room := height_lt_side n
  have sized : Render.side {} Preset.binaryTree.commands.interpreter
      (Preset.binaryTree.grammar.expand n) = max 3 (2 ^ n * (n + 2) / 2) := by
    rw [Render.side, movements_expand]
  generalize max 3 (2 ^ n * (n + 2) / 2) = side at representable room sized
  let root : Cell := ⟨(side / 2 : Nat), 0⟩
  have start : root.wrap = Preset.binaryTree.start.origin side :=
    StartPosition.middleBottom.wrap_cell representable
  have columns : 0 ≤ root.x - (2 ^ n / 2 : Nat) ∧ root.x + (2 ^ n / 2 : Nat) < side := by
    change 0 ≤ ((side / 2 : Nat) : Int) - _ ∧ ((side / 2 : Nat) : Int) + _ < side
    omega
  have rows : 0 ≤ root.y + 1 ∧ root.y + (2 ^ n : Nat) < side := by
    change 0 ≤ (0 : Int) + 1 ∧ (0 : Int) + _ < side
    omega
  obtain ⟨v, hwalk, -⟩ := exists_walk_place n root
  obtain ⟨lines, drawn, height, line_of_mem⟩ := Render.exists_lines {}
    (fun side => Preset.binaryTree.start.origin side) (reads_expand n) sized start representable
    hwalk (box_path n root) columns rows
  refine ⟨lines, (Render.value_definition ..).trans drawn, by omega, ?_⟩
  intro line hline
  obtain ⟨⟨width, plain⟩, hview⟩ := line_of_mem line hline
  refine ⟨?_, plain, ?_⟩
  · split
    · subst n
      omega
    · have even := Nat.two_pow_mod_two_eq_zero.mpr (Nat.pos_of_ne_zero ‹_›)
      omega
  · apply Mark.reverse_blanks_of_mem_view (fun m => Walker.glyph_of_mem_marks) _ hview
    intro x y
    -- The columns are counted from the left edge of the box, and mirrored about that of the root.
    have same := exists_mark_mirror_iff n root ((2 ^ n / 2 : Nat) - x) y
    have left : root.x - ((2 ^ n / 2 : Nat) - x) = root.x - (2 ^ n / 2 : Nat) + x := by omega
    have right : root.x + ((2 ^ n / 2 : Nat) - x) = root.x + (2 ^ n / 2 : Nat) - x := by omega
    rwa [left, right] at same

/-- The tree of generation `n` occupies the `2 ^ n` rows above its root, and half as many columns on
either side of it, the same cells on both. It is drawn wherever its canvas can be addressed. -/
theorem generation_symmetric (n : Nat) :
    let w : Word := Preset.binaryTree.grammar.expand n
    let i := Preset.binaryTree.commands.interpreter
    let reach : Nat := 2 ^ n / 2
    i.movements w = 2 ^ n * (n + 2) / 2 ∧
      (∃ commands, i.Reads w commands ∧ ∀ p : Cell,
        let marks := (Walker.place p .north).marks commands
        (∃ v, (Walker.place p .north).walk? commands = some v ∧ v.saved = []) ∧
          Mark.Box marks (p.x - reach) (p.x + reach) (p.y + 1) (p.y + (2 ^ n : Nat)) ∧
          (∀ y, p.y + 1 ≤ y → y ≤ p.y + (2 ^ n : Nat) → ∃ m ∈ marks, m.cell.y = y) ∧
          ∀ x y, (∃ m ∈ marks, m.cell = ⟨p.x - x, y⟩) ↔ ∃ m ∈ marks, m.cell = ⟨p.x + x, y⟩) ∧
      (max 3 (2 ^ n * (n + 2) / 2) ≤ StartPosition.farthest →
        ∃ lines, (Render.definition {} Preset.binaryTree.definition n).value =
            .ok (String.ofList (Canvas.unlines lines)) ∧
          lines.length = 2 ^ n ∧
            ∀ line ∈ lines, line.length = (if n = 0 then 1 else 2 ^ n + 1) ∧ '\n' ∉ line ∧
              (line.map Unicode.isBlank).reverse = line.map Unicode.isBlank) := by
  intro w i reach
  refine ⟨movements_expand n, ⟨path n, reads_expand n, ?_⟩, exists_lines_definition n⟩
  intro p marks
  obtain ⟨v, hwalk, closed⟩ := exists_walk_place n p
  have rows := (box_path n p).exists_row_iff (Walker.unbroken_marks hwalk)
  exact ⟨⟨v, hwalk, closed⟩, box_path n p, fun y low high => (rows y).mpr ⟨low, high⟩,
    exists_mark_mirror_iff n p⟩

theorem generation_symmetric_five :
    max 3 (2 ^ 5 * (5 + 2) / 2) ≤ StartPosition.farthest ∧
      ∃ lines, (Render.definition {} Preset.binaryTree.definition 5).value =
          .ok (String.ofList (Canvas.unlines lines)) ∧
        lines.length = 32 ∧ ∀ line ∈ lines, line.length = 33 ∧ '\n' ∉ line ∧
          (line.map Unicode.isBlank).reverse = line.map Unicode.isBlank :=
  ⟨by decide, (generation_symmetric 5).2.2 (by decide)⟩

end TurtleArt.BinaryTree
