import TurtleArt.Proofs.Direction
import TurtleArt.Proofs.Turtle.Reach

/-! The plane as a turtle sees it: so far ahead, so far to its left. In these terms the moves of a
turtle add up, a quarter turn swaps the two axes, whichever way it faces, and a mirror swaps the two
sides. -/

namespace TurtleArt

def Cell.along (e : Direction) (q : Cell) : Int :=
  e.step.1 * q.x + e.step.2 * q.y

namespace Stance

/-- The stance with the same heading, `ahead` steps along it and `aside` steps to the left of it. -/
def shift (s : Stance) (ahead aside : Int) : Stance :=
  { s with
    cell := s.cell.offset
      (ahead * s.heading.step.1 + aside * s.heading.left.left.step.1)
      (ahead * s.heading.step.2 + aside * s.heading.left.left.step.2) }

variable (s : Stance) (a b a' b' : Int)

@[simp] theorem shift_zero : s.shift 0 0 = s := by
  ext <;> simp [shift, Cell.offset]

theorem advance_eq_shift : s.advance = s.shift 1 0 := by
  ext <;> simp [advance, shift, Cell.advance, Cell.offset]

@[simp] theorem left_right : s.left.right = s := by
  simp [left, right]

@[simp] theorem right_left : s.right.left = s := by
  simp [left, right]

theorem shift_shift : (s.shift a b).shift a' b' = s.shift (a + a') (b + b') := by
  ext
  · simp only [shift, Cell.offset, Int.add_mul]
    omega
  · simp only [shift, Cell.offset, Int.add_mul]
    omega
  · rfl

theorem shift_left_left : s.left.left.shift a b = (s.shift (-b) a).left.left := by
  obtain ⟨p, d⟩ := s
  ext
  · cases d <;> simp only [shift, left, Cell.offset, Direction.left, Direction.step] <;> omega
  · cases d <;> simp only [shift, left, Cell.offset, Direction.left, Direction.step] <;> omega
  · rfl

theorem shift_right_right : s.right.right.shift a b = (s.shift b (-a)).right.right := by
  have turned := (s.right.right).shift_left_left b (-a)
  simp only [right_left, Int.neg_neg] at turned
  rw [turned]
  simp only [left_right]

theorem along_shift {e : Direction} (axial : e.Axial) (h : e.Toward s.heading) (n : Nat) :
    (s.shift n 0).cell.along e = s.cell.along e + n := by
  obtain ⟨p, d⟩ := s
  change d = e.left ∨ d = e ∨ d = e.right at h
  rcases h with h | h | h
  all_goals
    subst d
    cases e
    case north | east | south | west =>
      simp only [Cell.along, shift, Cell.offset, Direction.left, Direction.right,
        Direction.step]
      omega
    all_goals exact absurd axial (by decide)

theorem distance_shift (n : Nat) : s.cell.distance (s.shift n 0).cell = n := by
  obtain ⟨p, d⟩ := s
  unfold Cell.distance shift Cell.offset
  cases d <;> simp only [Direction.step] <;> omega

end Stance

namespace Walker

theorem walk?_line (k : Nat) (s : Stance) (saved : List Stance) :
    (⟨s, saved⟩ : Walker).walk? (List.replicate k .drawLine) = some ⟨s.shift k 0, saved⟩ := by
  induction k generalizing s with
  | zero => simp
  | succ k ih =>
    have next : (⟨s, saved⟩ : Walker).next? .drawLine = some ⟨s.shift 1 0, saved⟩ := by
      rw [← Stance.advance_eq_shift]
      rfl
    have ahead : (1 : Int) + k = (k + 1 : Nat) := by omega
    rw [List.replicate_succ, walk?_cons, next, Option.bind_some, ih, Stance.shift_shift, ahead]
    rfl

theorem exists_mark_line_iff (k : Nat) (s : Stance) (saved : List Stance) (q : Cell) :
    (∃ m ∈ (⟨s, saved⟩ : Walker).marks (List.replicate k .drawLine), m.cell = q) ↔
      ∃ j : Nat, 0 < j ∧ j ≤ k ∧ (s.shift j 0).cell = q := by
  induction k with
  | zero =>
    simp only [List.replicate_zero, marks_nil, List.not_mem_nil, false_and, exists_false,
      false_iff, not_exists, not_and]
    omega
  | succ k ih =>
    have last : (⟨s.shift k 0, saved⟩ : Walker).marks [.drawLine] =
        [⟨(s.shift (k + 1) 0).cell, s.heading.arrow⟩] := by
      rw [← Int.zero_add 0, ← Stance.shift_shift, ← Stance.advance_eq_shift]
      rfl
    rw [List.replicate_succ', marks_append (walk?_line k s saved), last]
    simp only [List.mem_append, List.mem_singleton, or_and_right, exists_or, ih, exists_eq_left]
    constructor
    · rintro (⟨j, hj, hk, hq⟩ | hq)
      · exact ⟨j, hj, Nat.le_succ_of_le hk, hq⟩
      · exact ⟨k + 1, k.succ_pos, Nat.le_refl _, hq⟩
    · rintro ⟨j, hj, hk, hq⟩
      rcases Nat.le_or_eq_of_le_succ hk with hk | rfl
      · exact .inl ⟨j, hj, hk, hq⟩
      · exact .inr hq

end Walker

def Cell.mirror (column : Int) (p : Cell) : Cell :=
  ⟨2 * column - p.x, p.y⟩

@[simp] theorem Cell.mirror_mirror (column : Int) (p : Cell) :
    (p.mirror column).mirror column = p := by
  ext
  · simp only [mirror]
    omega
  · rfl

namespace Stance

def mirror (column : Int) (s : Stance) : Stance :=
  ⟨s.cell.mirror column, s.heading.mirror⟩

variable (column : Int) (s : Stance)

theorem mirror_left : s.left.mirror column = (s.mirror column).right :=
  Stance.ext rfl s.heading.mirror_left

theorem mirror_right : s.right.mirror column = (s.mirror column).left :=
  Stance.ext rfl s.heading.mirror_right

theorem mirror_shift (a b : Int) :
    (s.shift a b).mirror column = (s.mirror column).shift a (-b) := by
  obtain ⟨p, d⟩ := s
  ext
  · cases d <;> simp only [mirror, shift, Cell.mirror, Cell.offset, Direction.mirror,
      Direction.left, Direction.step] <;> omega
  · cases d <;> simp only [mirror, shift, Cell.mirror, Cell.offset, Direction.mirror,
      Direction.left, Direction.step] <;> omega
  · rfl

end Stance
end TurtleArt
