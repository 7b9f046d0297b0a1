import Mathlib.Data.List.Sort
import TurtleArt.Proofs.Canvas.Window
import TurtleArt.Proofs.Turtle.View

/-! A canvas that shows a list of marks is printed as the view of these marks. -/

namespace TurtleArt

open Unicode

theorem Direction.isBlank_arrow (d : Direction) : isBlank d.arrow = false := by
  cases d <;> decide

theorem filter_reverse_range {n bottom top : Nat} (h : top < n) :
    ((List.range n).reverse.filter fun y => bottom ≤ y ∧ y ≤ top) =
      (List.range (top + 1 - bottom)).map fun i => top - i := by
  -- Both lists descend, so it is enough to compare their members.
  apply List.Pairwise.eq_of_mem_iff (r := (· > ·))
  · exact (List.pairwise_reverse.mpr List.pairwise_lt_range).filter _
  · rw [List.pairwise_map]
    refine List.pairwise_lt_range.imp_of_mem ?_
    intro i j hi hj hij
    rw [List.mem_range] at hj
    omega
  · intro y
    simp only [List.mem_filter, List.mem_reverse, List.mem_range, decide_eq_true_eq, List.mem_map]
    constructor
    · rintro ⟨-, hbottom, htop⟩
      exact ⟨top - y, by omega, by omega⟩
    · rintro ⟨i, hi, rfl⟩
      omega

namespace Mark

variable {marks : List Mark} {left right bottom top : Int}

theorem isBlank_glyphAt_iff (arrow : ∀ m ∈ marks, ∃ d : Direction, m.glyph = d.arrow)
    (e : Cell) : isBlank ((glyphAt marks e).getD ' ') = true ↔ ∀ m ∈ marks, m.cell ≠ e := by
  rw [← glyphAt_eq_none_iff]
  cases hglyph : glyphAt marks e with
  | none => simp [isBlank_space]
  | some g =>
    obtain ⟨m, hm, -, rfl⟩ := glyphAt_eq_some hglyph
    obtain ⟨d, hd⟩ := arrow m hm
    rw [Option.getD_some, hd, d.isBlank_arrow]
    simp

/-- Marks that lie the same way on both sides of their box make lines that are blank in the same
places from both ends. The glyphs need not be the same. -/
theorem reverse_blanks_of_mem_view (arrow : ∀ m ∈ marks, ∃ d : Direction, m.glyph = d.arrow)
    (mirrored : ∀ x y, (∃ m ∈ marks, m.cell = ⟨left + x, y⟩) ↔ ∃ m ∈ marks, m.cell = ⟨right - x, y⟩)
    {line : List Char} (h : line ∈ view marks left right bottom top) :
    (line.map isBlank).reverse = line.map isBlank := by
  obtain ⟨i, -, rfl⟩ := List.mem_map.mp h
  rw [List.map_map]
  apply List.ext_getElem
  · simp
  · intro j hj hj'
    rw [List.length_map, List.length_range] at hj'
    simp only [List.getElem_reverse, List.getElem_map, List.getElem_range, List.length_map,
      List.length_range, Function.comp_apply]
    rw [Bool.eq_iff_iff, isBlank_glyphAt_iff arrow, isBlank_glyphAt_iff arrow]
    have opposite : left + ((right + 1 - left).toNat - 1 - j : Nat) = right - j := by omega
    have same := not_congr (mirrored j (top - i))
    rw [opposite]
    simpa only [not_exists, not_and] using same.symm

end Mark

namespace Canvas

open Mark

structure Depicts {side : Nat} (c : Canvas side) (marks : List Mark) : Prop where
  glyph_eq : ∀ x y : Nat, c.glyph x y = (glyphAt marks ⟨x, y⟩).getD ' '
  within : ∀ m ∈ marks, m.cell.Within side
  arrow : ∀ m ∈ marks, ∃ d : Direction, m.glyph = d.arrow

namespace Depicts

variable {side x y : Nat} {c : Canvas side} {marks : List Mark} {left right bottom top : Int}

theorem shows_iff (h : c.Depicts marks) : c.Shows x y ↔ ∃ m ∈ marks, m.cell = ⟨x, y⟩ := by
  rw [Shows, h.glyph_eq, ← Bool.not_eq_true, isBlank_glyphAt_iff h.arrow]
  simp only [ne_eq, not_forall, not_not, exists_prop]

theorem exists_cell (h : c.Depicts marks) {m : Mark} (hm : m ∈ marks) :
    ∃ x y : Nat, m.cell.x = x ∧ m.cell.y = y := by
  obtain ⟨⟨hx, -⟩, hy, -⟩ := h.within m hm
  exact ⟨m.cell.x.toNat, m.cell.y.toNat, by omega, by omega⟩

theorem exists_shows_column_iff (h : c.Depicts marks) :
    (∃ y, c.Shows x y) ↔ ∃ m ∈ marks, m.cell.x = x := by
  simp only [h.shows_iff]
  constructor
  · rintro ⟨y, m, hm, hcell⟩
    exact ⟨m, hm, by rw [hcell]⟩
  · rintro ⟨m, hm, hx⟩
    obtain ⟨-, y, -, hy⟩ := h.exists_cell hm
    exact ⟨y, m, hm, Cell.ext hx hy⟩

theorem exists_shows_row_iff (h : c.Depicts marks) :
    (∃ x, c.Shows x y) ↔ ∃ m ∈ marks, m.cell.y = y := by
  simp only [h.shows_iff]
  constructor
  · rintro ⟨x, m, hm, hcell⟩
    exact ⟨m, hm, by rw [hcell]⟩
  · rintro ⟨m, hm, hy⟩
    obtain ⟨x, -, hx, -⟩ := h.exists_cell hm
    exact ⟨x, m, hm, Cell.ext hx hy⟩

theorem draw_eq_of_nil (h : c.Depicts []) : c.draw = if side = 0 then "" else " \n" := by
  have blank : ∀ x y, ¬c.Shows x y := by
    intro x y hseen
    obtain ⟨m, hm, -⟩ := h.shows_iff.mp hseen
    cases hm
  rw [draw_eq_of_blank blank, h.glyph_eq]
  rfl

/-- As the marks leave no row out between the lowest and the highest, cropping takes none away. -/
theorem draw_eq_view (h : c.Depicts marks) (rows : Unbroken marks)
    (box : Box marks left right bottom top) :
    c.draw = String.ofList (unlines (view marks left right bottom top)) := by
  obtain ⟨a, ha, rfl⟩ := box.left.1
  obtain ⟨b, hb, rfl⟩ := box.right.1
  obtain ⟨d, hd, rfl⟩ := box.bottom.1
  obtain ⟨e, he, rfl⟩ := box.top.1
  obtain ⟨left, -, hleft, -⟩ := h.exists_cell ha
  obtain ⟨right, -, hright, -⟩ := h.exists_cell hb
  obtain ⟨-, bottom, -, hbottom⟩ := h.exists_cell hd
  obtain ⟨-, top, -, htop⟩ := h.exists_cell he
  have top_lt : top < side := by
    have := (h.within e he).2.2
    omega
  -- All marks are on the canvas, so the edges of their box are natural numbers.
  rw [hleft, hright, hbottom, htop] at box ⊢
  have least : IsLeast {x | ∃ y, c.Shows x y} left := by
    simp only [h.exists_shows_column_iff]
    exact ⟨box.left.1, fun x hx => Int.ofNat_le.mp (box.left.2 hx)⟩
  have greatest : IsGreatest {x | ∃ y, c.Shows x y} right := by
    simp only [h.exists_shows_column_iff]
    exact ⟨box.right.1, fun x hx => Int.ofNat_le.mp (box.right.2 hx)⟩
  have drawn (y : Nat) : (!(c.row y).all isBlank) = decide (bottom ≤ y ∧ y ≤ top) := by
    rw [Bool.eq_iff_iff, exists_visible_iff, decide_eq_true_iff]
    simp only [visible_row_iff, h.exists_shows_row_iff, box.exists_row_iff rows]
    omega
  rw [draw_eq least greatest, funext drawn, filter_reverse_range top_lt, List.map_map, view]
  have height : ((top : Int) + 1 - bottom).toNat = top + 1 - bottom := by omega
  have width : ((right : Int) + 1 - left).toNat = right + 1 - left := by omega
  rw [height, width]
  congr 2
  apply List.map_congr_left
  intro i hi
  have below : ((top - i : Nat) : Int) = top - i := by
    rw [List.mem_range] at hi
    omega
  apply List.map_congr_left
  intro j _
  rw [h.glyph_eq, below, Int.natCast_add]

end Depicts

theorem glyph_blank (side x y : Nat) : (blank side).glyph x y = ' ' := by
  rw [glyph, at?_blank]
  split <;> rfl

end Canvas
end TurtleArt
