import Mathlib.Order.Bounds.Basic
import TurtleArt.Canvas.Crop
import TurtleArt.Proofs.Canvas.Square

/-! What a canvas looks like as text: the rows with a visible character, from the top down, each
cut to the columns from the leftmost visible character of the canvas to the rightmost. -/

namespace TurtleArt.Canvas

open Unicode

def Visible (row : List Char) (x : Nat) : Prop :=
  ∃ c, row[x]? = some c ∧ isBlank c = false

section Rows

variable {row : List Char} {rows : List (List Char)} {x left right : Nat}

theorem indent_eq_findIdx (row : List Char) : indent row = row.findIdx fun c => !isBlank c := by
  rw [indent]
  induction row with
  | nil => rfl
  | cons c row ih =>
    rw [List.takeWhile_cons, List.findIdx_cons]
    cases isBlank c with
    | true => simpa using ih
    | false => rfl

theorem isLeast_indent (h : Visible row x) : IsLeast {x | Visible row x} (indent row) := by
  obtain ⟨c, hc, hseen⟩ := h
  have hlt : row.findIdx (fun c => !isBlank c) < row.length :=
    List.findIdx_lt_length.mpr ⟨c, List.mem_of_getElem? hc, by simp [hseen]⟩
  rw [indent_eq_findIdx]
  refine ⟨⟨_, List.getElem?_eq_getElem hlt, ?_⟩, ?_⟩
  · simpa using List.findIdx_getElem (w := hlt)
  · rintro y ⟨d, hd, hseen'⟩
    by_contra hy
    have blank := List.not_of_lt_findIdx (Nat.lt_of_not_le hy)
    obtain ⟨hlen, rfl⟩ := List.getElem?_eq_some_iff.mp hd
    simp [hseen'] at blank

theorem visible_reverse :
    Visible row.reverse x ↔ x < row.length ∧ Visible row (row.length - 1 - x) := by
  unfold Visible
  constructor
  · rintro ⟨c, hc, hseen⟩
    have hlt : x < row.length := by
      simpa using (List.getElem?_eq_some_iff.mp hc).1
    exact ⟨hlt, c, by rwa [List.getElem?_reverse hlt] at hc, hseen⟩
  · rintro ⟨hlt, c, hc, hseen⟩
    exact ⟨c, by rwa [List.getElem?_reverse hlt], hseen⟩

theorem lt_length_of_visible (h : Visible row x) : x < row.length :=
  (List.getElem?_eq_some_iff.mp h.choose_spec.1).1

theorem extent_eq (row : List Char) : extent row = row.length - indent row.reverse := by
  have whole := congrArg List.length
    (List.takeWhile_append_dropWhile (p := isBlank) (l := row.reverse))
  rw [List.length_append, List.length_reverse] at whole
  rw [extent, indent]
  omega

theorem isGreatest_extent (h : Visible row x) :
    ∃ last, extent row = last + 1 ∧ IsGreatest {x | Visible row x} last := by
  -- The blanks behind the last visible character are the indent of the row read backwards.
  have hx := lt_length_of_visible h
  have mirror (y : Nat) (hy : Visible row y) : Visible row.reverse (row.length - 1 - y) := by
    have := lt_length_of_visible hy
    rw [visible_reverse]
    exact ⟨by omega, by rwa [show row.length - 1 - (row.length - 1 - y) = y by omega]⟩
  obtain ⟨hmem, hleast⟩ := isLeast_indent (mirror x h)
  obtain ⟨hlt, hlast⟩ := visible_reverse.mp hmem
  refine ⟨row.length - 1 - indent row.reverse, by rw [extent_eq]; omega, hlast, ?_⟩
  intro y hy
  have := hleast (mirror y hy)
  have := lt_length_of_visible hy
  omega

theorem exists_visible_iff : (!row.all isBlank) = true ↔ ∃ x, Visible row x := by
  simp only [Bool.not_eq_true', List.all_eq_false, Bool.not_eq_true]
  constructor
  · rintro ⟨c, hc, hseen⟩
    obtain ⟨x, hx⟩ := List.mem_iff_getElem?.mp hc
    exact ⟨x, c, hx, hseen⟩
  · rintro ⟨x, c, hx, hseen⟩
    exact ⟨c, List.mem_of_getElem? hx, hseen⟩

theorem crop_eq_nil (h : ∀ row ∈ rows, ∀ x, ¬Visible row x) : crop rows = [] := by
  have none_drawn : (rows.filter fun row => !row.all isBlank) = [] := by
    rw [List.filter_eq_nil_iff]
    intro row hrow hdrawn
    obtain ⟨x, hx⟩ := exists_visible_iff.mp hdrawn
    exact h row hrow x hx
  rw [crop, none_drawn]
  rfl

theorem crop_eq (hleft : IsLeast {x | ∃ row ∈ rows, Visible row x} left)
    (hright : IsGreatest {x | ∃ row ∈ rows, Visible row x} right) :
    crop rows = (rows.filter fun row => !row.all isBlank).map
      fun row => (row.take (right + 1)).drop left := by
  -- The outermost columns belong to rows that are kept, so the window is that of the kept rows.
  have drawn {row : List Char} {x : Nat} (hrow : row ∈ rows) (hx : Visible row x) :
      row ∈ rows.filter fun row => !row.all isBlank :=
    List.mem_filter.mpr ⟨hrow, exists_visible_iff.mpr ⟨x, hx⟩⟩
  have first : ((rows.filter fun row => !row.all isBlank).map indent).min? = some left := by
    rw [List.min?_eq_some_iff]
    constructor
    · obtain ⟨row, hrow, hx⟩ := hleft.1
      have least := isLeast_indent hx
      refine List.mem_map.mpr ⟨row, drawn hrow hx, Nat.le_antisymm (least.2 hx) ?_⟩
      exact hleft.2 ⟨row, hrow, least.1⟩
    · intro n hn
      obtain ⟨row, hrow, rfl⟩ := List.mem_map.mp hn
      obtain ⟨hmem, hseen⟩ := List.mem_filter.mp hrow
      obtain ⟨x, hx⟩ := exists_visible_iff.mp hseen
      exact hleft.2 ⟨row, hmem, (isLeast_indent hx).1⟩
  have last : ((rows.filter fun row => !row.all isBlank).map extent).max? = some (right + 1) := by
    rw [List.max?_eq_some_iff]
    constructor
    · obtain ⟨row, hrow, hx⟩ := hright.1
      obtain ⟨y, hy, greatest⟩ := isGreatest_extent hx
      refine List.mem_map.mpr ⟨row, drawn hrow hx, ?_⟩
      rw [hy, Nat.le_antisymm (hright.2 ⟨row, hrow, greatest.1⟩) (greatest.2 hx)]
    · intro n hn
      obtain ⟨row, hrow, rfl⟩ := List.mem_map.mp hn
      obtain ⟨hmem, hseen⟩ := List.mem_filter.mp hrow
      obtain ⟨x, hx⟩ := exists_visible_iff.mp hseen
      obtain ⟨y, hy, greatest⟩ := isGreatest_extent hx
      rw [hy]
      exact Nat.succ_le_succ (hright.2 ⟨row, hmem, greatest.1⟩)
  rw [crop, first, last]
  rfl

end Rows

variable {side x y left right : Nat} {c : Canvas side}

/-- The character in column `x` of row `y`, counted from the bottom left corner. -/
def glyph (c : Canvas side) (x y : Nat) : Char :=
  (c.at? ⟨x, y⟩).getD ' '

def row (c : Canvas side) (y : Nat) : List Char :=
  (List.range side).map fun x => c.glyph x y

def Shows (c : Canvas side) (x y : Nat) : Prop :=
  isBlank (c.glyph x y) = false

theorem glyph_eq_getElem (hx : x < side) (hy : y < side) : c.glyph x y = c.rows[y][x] := by
  have cell : Cell.index? side ⟨x, y⟩ = some (⟨x, hx⟩, ⟨y, hy⟩) := Cell.index?_eq_some.mpr rfl
  rw [glyph, at?, cell]
  rfl

theorem at?_eq_glyph (hx : x < side) (hy : y < side) : c.at? ⟨x, y⟩ = some (c.glyph x y) := by
  cases hat : c.at? ⟨x, y⟩ with
  | none =>
    exact absurd (Cell.within_natCast_iff.mpr ⟨hx, hy⟩) (at?_eq_none_iff.mp hat)
  | some g => rw [glyph, hat, Option.getD_some]

theorem lt_of_shows (h : c.Shows x y) : x < side ∧ y < side := by
  by_contra outside
  have off : c.at? ⟨x, y⟩ = none := by rwa [at?_eq_none_iff, Cell.within_natCast_iff]
  rw [Shows, glyph, off, Option.getD_none, isBlank_space] at h
  cases h

theorem lines_eq (c : Canvas side) : c.lines = (List.range side).reverse.map c.row := by
  have rows : c.rows.toList.map Vector.toList = (List.range side).map c.row := by
    apply List.ext_getElem
    · simp
    · intro y hy hy'
      have y_lt : y < side := by simpa using hy'
      rw [List.getElem_map, List.getElem_map, List.getElem_range]
      apply List.ext_getElem
      · simp [row]
      · intro x hx hx'
        have x_lt : x < side := by simpa [row] using hx'
        simp [row, glyph_eq_getElem x_lt y_lt]
  rw [lines, List.map_reverse, rows, List.map_reverse]

theorem visible_row_iff : Visible (c.row y) x ↔ c.Shows x y := by
  constructor
  · rintro ⟨d, hd, hseen⟩
    obtain ⟨hx, rfl⟩ := List.getElem?_eq_some_iff.mp hd
    simpa [row, Shows] using hseen
  · intro h
    refine ⟨c.glyph x y, ?_, h⟩
    simp [row, (lt_of_shows h).1]

theorem exists_visible_line_iff : (∃ line ∈ c.lines, Visible line x) ↔ ∃ y, c.Shows x y := by
  simp only [lines_eq, List.mem_map, List.mem_reverse, List.mem_range, exists_exists_and_eq_and,
    visible_row_iff]
  exact ⟨fun ⟨y, _, h⟩ => ⟨y, h⟩, fun ⟨y, h⟩ => ⟨y, (lt_of_shows h).2, h⟩⟩

theorem drop_take_row (h : right < side) (y : Nat) :
    ((c.row y).take (right + 1)).drop left =
      (List.range (right + 1 - left)).map fun j => c.glyph (left + j) y := by
  rw [row, ← List.map_take, List.take_range, ← List.map_drop, Nat.min_eq_left h]
  apply List.ext_getElem
  · simp
  · intro j hj hj'
    simp

theorem draw_eq_of_blank (h : ∀ x y, ¬c.Shows x y) :
    c.draw = if side = 0 then "" else String.ofList [c.glyph 0 (side - 1), '\n'] := by
  have nothing : crop c.lines = [] := by
    apply crop_eq_nil
    intro line hline x hx
    obtain ⟨y, hy⟩ := exists_visible_line_iff.mp ⟨line, hline, hx⟩
    exact h x y hy
  rw [draw, nothing, lines_eq]
  cases side with
  | zero => rfl
  | succ n =>
    have top : (List.range (n + 1)).reverse = n :: (List.range n).reverse := by
      rw [List.range_succ, List.reverse_append]
      rfl
    rw [top, List.map_cons, row, List.range_succ_eq_map]
    rfl

/-- A canvas is printed from the top down, in the columns from its leftmost visible character to
its rightmost, without the rows that have none. -/
theorem draw_eq (hleft : IsLeast {x | ∃ y, c.Shows x y} left)
    (hright : IsGreatest {x | ∃ y, c.Shows x y} right) :
    c.draw = String.ofList (unlines
      (((List.range side).reverse.filter fun y => !(c.row y).all isBlank).map fun y =>
        (List.range (right + 1 - left)).map fun j => c.glyph (left + j) y)) := by
  obtain ⟨y, hy⟩ := hright.1
  have right_lt := (lt_of_shows hy).1
  simp only [← exists_visible_line_iff] at hleft hright
  have cropped : crop c.lines =
      ((List.range side).reverse.filter fun y => !(c.row y).all isBlank).map fun y =>
        (List.range (right + 1 - left)).map fun j => c.glyph (left + j) y := by
    rw [crop_eq hleft hright, lines_eq, List.filter_map, List.map_map]
    apply List.map_congr_left
    intro y _
    exact drop_take_row right_lt y
  -- A row is left, so that the top left cell is not printed in its stead.
  have drawn : crop c.lines ≠ [] := by
    obtain ⟨line, hline, hx⟩ := hright.1
    rw [crop_eq hleft hright, ne_eq, List.map_eq_nil_iff, List.filter_eq_nil_iff]
    exact fun none_drawn => none_drawn line hline (exists_visible_iff.mpr ⟨right, hx⟩)
  rw [draw, ← cropped]
  split
  · contradiction
  · rfl

end TurtleArt.Canvas
