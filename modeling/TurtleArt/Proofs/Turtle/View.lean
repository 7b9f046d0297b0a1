import Mathlib.Order.Bounds.Basic
import TurtleArt.Proofs.Turtle.Trail

/-! What is to be seen of a list of marks: the smallest box around them, row by row, with the last
mark in every cell. -/

namespace TurtleArt.Mark

structure Box (marks : List Mark) (left right bottom top : Int) : Prop where
  left : IsLeast {x | ∃ m ∈ marks, m.cell.x = x} left
  right : IsGreatest {x | ∃ m ∈ marks, m.cell.x = x} right
  bottom : IsLeast {y | ∃ m ∈ marks, m.cell.y = y} bottom
  top : IsGreatest {y | ∃ m ∈ marks, m.cell.y = y} top

/-- The rows of a box from the top down, with the last mark in every cell. -/
def view (marks : List Mark) (left right bottom top : Int) : List (List Char) :=
  (List.range (top + 1 - bottom).toNat).map fun i : Nat =>
    (List.range (right + 1 - left).toNat).map fun j : Nat =>
      (glyphAt marks ⟨left + j, top - i⟩).getD ' '

variable {marks : List Mark} {left right bottom top : Int}

theorem box_of_bounds
    (bounds : ∀ m ∈ marks,
      (left ≤ m.cell.x ∧ m.cell.x ≤ right) ∧ bottom ≤ m.cell.y ∧ m.cell.y ≤ top)
    (hleft : ∃ m ∈ marks, m.cell.x = left) (hright : ∃ m ∈ marks, m.cell.x = right)
    (hbottom : ∃ m ∈ marks, m.cell.y = bottom) (htop : ∃ m ∈ marks, m.cell.y = top) :
    Box marks left right bottom top := by
  refine ⟨⟨hleft, ?_⟩, ⟨hright, ?_⟩, ⟨hbottom, ?_⟩, ⟨htop, ?_⟩⟩
  · rintro x ⟨m, hm, rfl⟩
    exact (bounds m hm).1.1
  · rintro x ⟨m, hm, rfl⟩
    exact (bounds m hm).1.2
  · rintro y ⟨m, hm, rfl⟩
    exact (bounds m hm).2.1
  · rintro y ⟨m, hm, rfl⟩
    exact (bounds m hm).2.2

theorem Box.bounds (box : Box marks left right bottom top) {m : Mark} (hm : m ∈ marks) :
    (left ≤ m.cell.x ∧ m.cell.x ≤ right) ∧ bottom ≤ m.cell.y ∧ m.cell.y ≤ top :=
  ⟨⟨box.left.2 ⟨m, hm, rfl⟩, box.right.2 ⟨m, hm, rfl⟩⟩,
    box.bottom.2 ⟨m, hm, rfl⟩, box.top.2 ⟨m, hm, rfl⟩⟩

theorem exists_isLeast (f : Mark → Int) (h : marks ≠ []) :
    ∃ n, IsLeast {n | ∃ m ∈ marks, f m = n} n := by
  cases hmin : (marks.map f).min? with
  | none => simp [h] at hmin
  | some n =>
    obtain ⟨hmem, hle⟩ := List.min?_eq_some_iff.mp hmin
    refine ⟨n, List.mem_map.mp hmem, ?_⟩
    rintro k ⟨m, hm, rfl⟩
    exact hle _ (List.mem_map_of_mem hm)

theorem exists_isGreatest (f : Mark → Int) (h : marks ≠ []) :
    ∃ n, IsGreatest {n | ∃ m ∈ marks, f m = n} n := by
  cases hmax : (marks.map f).max? with
  | none => simp [h] at hmax
  | some n =>
    obtain ⟨hmem, hle⟩ := List.max?_eq_some_iff.mp hmax
    refine ⟨n, List.mem_map.mp hmem, ?_⟩
    rintro k ⟨m, hm, rfl⟩
    exact hle _ (List.mem_map_of_mem hm)

theorem exists_box (h : marks ≠ []) : ∃ left right bottom top, Box marks left right bottom top := by
  obtain ⟨left, hleft⟩ := exists_isLeast (·.cell.x) h
  obtain ⟨right, hright⟩ := exists_isGreatest (·.cell.x) h
  obtain ⟨bottom, hbottom⟩ := exists_isLeast (·.cell.y) h
  obtain ⟨top, htop⟩ := exists_isGreatest (·.cell.y) h
  exact ⟨left, right, bottom, top, hleft, hright, hbottom, htop⟩

theorem length_view (box : Box marks left right bottom top) :
    ((view marks left right bottom top).length : Int) = top + 1 - bottom := by
  have height := box.top.2 box.bottom.1
  rw [view, List.length_map, List.length_range, Int.toNat_of_nonneg (by omega)]

theorem length_of_mem_view (box : Box marks left right bottom top) {line : List Char}
    (h : line ∈ view marks left right bottom top) : (line.length : Int) = right + 1 - left := by
  have width := box.right.2 box.left.1
  obtain ⟨i, -, rfl⟩ := List.mem_map.mp h
  rw [List.length_map, List.length_range, Int.toNat_of_nonneg (by omega)]

theorem newline_notMem_view (arrow : ∀ m ∈ marks, ∃ d : Direction, m.glyph = d.arrow)
    {line : List Char} (h : line ∈ view marks left right bottom top) : '\n' ∉ line := by
  intro hnewline
  obtain ⟨i, -, rfl⟩ := List.mem_map.mp h
  obtain ⟨j, -, hj⟩ := List.mem_map.mp hnewline
  cases hglyph : glyphAt marks ⟨left + j, top - i⟩ with
  | none => simp [hglyph] at hj
  | some g =>
    obtain ⟨m, hm, -, rfl⟩ := glyphAt_eq_some hglyph
    obtain ⟨d, hd⟩ := arrow m hm
    rw [hglyph, Option.getD_some, hd] at hj
    cases d <;> cases hj

theorem Box.exists_row_iff (box : Box marks left right bottom top) (rows : Unbroken marks)
    (y : Int) :
    (∃ m ∈ marks, m.cell.y = y) ↔ bottom ≤ y ∧ y ≤ top := by
  constructor
  · intro marked
    exact ⟨box.bottom.2 marked, box.top.2 marked⟩
  · rintro ⟨hbottom, htop⟩
    obtain ⟨a, ha, rfl⟩ := box.bottom.1
    obtain ⟨b, hb, rfl⟩ := box.top.1
    exact rows a ha b hb y hbottom htop

end TurtleArt.Mark
