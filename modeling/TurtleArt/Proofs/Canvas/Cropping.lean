import Mathlib.Order.Lattice.Nat
import TurtleArt.Proofs.Canvas.History

/-! Cropping loses nothing that can be seen. The text of a canvas has the cells of a rectangle, row
by row from the top, without the rows in which nothing shows; and the rectangle is as narrow as it
can be. -/

namespace TurtleArt.Canvas

open Unicode

variable {side : Nat} {c : Canvas side} {left right x y : Nat} {rows : List Nat}
  {lines : List (List Char)}

/-- The characters of a canvas in reading order, from the top left to the bottom right. -/
def cells (c : Canvas side) : List Char :=
  (List.range side).reverse.flatMap fun y : Nat =>
    (List.range side).filterMap fun x : Nat => c.at? ⟨x, y⟩

/-- The lines hold the cells of the given rows, from the leftmost column in which anything shows to
the rightmost. The rows are those in which anything shows, from the top down. -/
structure Cropped (c : Canvas side) (left right : Nat) (rows : List Nat)
    (lines : List (List Char)) : Prop where
  leftmost : IsLeast {x | ∃ y, c.Shows x y} left
  rightmost : IsGreatest {x | ∃ y, c.Shows x y} right
  descending : rows.Pairwise (· > ·)
  shown : ∀ y, y ∈ rows ↔ ∃ x, c.Shows x y
  cells : lines.map (List.map some) = rows.map fun y : Nat =>
    (List.range' left (right + 1 - left)).map fun x : Nat => c.at? ⟨x, y⟩

theorem cells_eq (c : Canvas side) : c.cells = (List.range side).reverse.flatMap c.row := by
  apply List.flatMap_congr
  intro y hy
  rw [List.mem_reverse, List.mem_range] at hy
  rw [row, ← List.filterMap_eq_map]
  apply List.filterMap_congr
  intro x hx
  exact at?_eq_glyph (List.mem_range.mp hx) hy

theorem filter_row (hleft : IsLeast {x | ∃ y, c.Shows x y} left)
    (hright : IsGreatest {x | ∃ y, c.Shows x y} right) (y : Nat) :
    (c.row y).filter (fun g => !isBlank g) =
      ((List.range' left (right + 1 - left)).map (c.glyph · y)).filter fun g => !isBlank g := by
  have le : left ≤ right := hleft.2 hright.1
  have lt : right < side := by
    obtain ⟨y, hy⟩ := hright.1
    exact (lt_of_shows hy).1
  -- Nothing shows in the columns before `left` and behind `right`.
  have parts : List.range side = List.range' 0 left ++ (List.range' left (right + 1 - left) ++
      List.range' (right + 1) (side - (right + 1))) := by
    have inner : left + (right + 1 - left) = right + 1 := by omega
    have outer : left + (right + 1 - left + (side - (right + 1))) = side := by omega
    have late := @List.range'_append_1 left (right + 1 - left) (side - (right + 1))
    have early := @List.range'_append_1 0 left (right + 1 - left + (side - (right + 1)))
    rw [inner] at late
    rw [Nat.zero_add, outer] at early
    rw [List.range_eq_range', late, early]
  have blank (xs : List Nat) (outside : ∀ x ∈ xs, ¬c.Shows x y) :
      (xs.map (c.glyph · y)).filter (fun g => !isBlank g) = [] := by
    rw [List.filter_eq_nil_iff, List.forall_mem_map]
    intro x hx hshows
    exact outside x hx (by simpa [Shows] using hshows)
  rw [row, parts, List.map_append, List.map_append, List.filter_append, List.filter_append,
    blank (List.range' 0 left), blank (List.range' (right + 1) _), List.nil_append, List.append_nil]
  · intro x hx hshows
    have := hright.2 ⟨y, hshows⟩
    rw [List.mem_range'_1] at hx
    omega
  · intro x hx hshows
    have := hleft.2 ⟨y, hshows⟩
    rw [List.mem_range'_1] at hx
    omega

namespace Cropped

theorem left_le (h : Cropped c left right rows lines) : left ≤ right :=
  h.leftmost.2 h.rightmost.1

theorem lines_eq (h : Cropped c left right rows lines) : lines = rows.map fun y =>
    (List.range' left (right + 1 - left)).map (c.glyph · y) := by
  apply (List.map_inj_right fun _ _ => (List.map_inj_right fun _ _ => Option.some.inj).mp).mp
  rw [h.cells, List.map_map]
  apply List.map_congr_left
  intro y hy
  rw [Function.comp_apply, List.map_map]
  apply List.map_congr_left
  intro x hx
  obtain ⟨z, hz⟩ := h.rightmost.1
  obtain ⟨w, hw⟩ := (h.shown y).mp hy
  have lt := (lt_of_shows hz).1
  rw [List.mem_range'_1] at hx
  exact at?_eq_glyph (by omega) (lt_of_shows hw).2

theorem length_eq (h : Cropped c left right rows lines) :
    ∀ line ∈ lines, line.length = right + 1 - left := by
  rw [h.lines_eq, List.forall_mem_map]
  intro y _
  rw [List.length_map, List.length_range']

theorem exists_head (h : Cropped c left right rows lines) :
    ∃ line ∈ lines, ∃ g, line.head? = some g ∧ isBlank g = false := by
  obtain ⟨y, hy⟩ := h.leftmost.1
  have le := h.left_le
  rw [h.lines_eq]
  refine ⟨_, List.mem_map_of_mem ((h.shown y).mpr ⟨left, hy⟩), c.glyph left y, ?_, hy⟩
  rw [List.head?_map, List.head?_range', if_neg (by omega)]
  rfl

theorem exists_last (h : Cropped c left right rows lines) :
    ∃ line ∈ lines, ∃ g, line.getLast? = some g ∧ isBlank g = false := by
  obtain ⟨y, hy⟩ := h.rightmost.1
  have le := h.left_le
  have last : left + (right + 1 - left) - 1 = right := by omega
  rw [h.lines_eq]
  refine ⟨_, List.mem_map_of_mem ((h.shown y).mpr ⟨right, hy⟩), c.glyph right y, ?_, hy⟩
  rw [List.getLast?_map, List.getLast?_range', if_neg (by omega), last]
  rfl

theorem rows_eq (h : Cropped c left right rows lines) :
    rows = (List.range side).reverse.filter fun y => !(c.row y).all isBlank := by
  -- Both lists descend, so it is enough to compare their members.
  apply h.descending.eq_of_mem_iff
  · exact (List.pairwise_reverse.mpr List.pairwise_lt_range).filter _
  · intro y
    rw [h.shown, List.mem_filter, exists_visible_iff, List.mem_reverse, List.mem_range]
    simp only [visible_row_iff]
    exact ⟨fun ⟨x, hx⟩ => ⟨(lt_of_shows hx).2, x, hx⟩, And.right⟩

/-- What shows on the canvas shows in the text, once, and in the same order. -/
theorem filter_unlines (h : Cropped c left right rows lines) :
    (unlines lines).filter (fun g => !isBlank g) = c.cells.filter fun g => !isBlank g := by
  have seen (y : Nat) : ((List.range' left (right + 1 - left)).map (c.glyph · y) ++ ['\n']).filter
      (fun g => !isBlank g) = (c.row y).filter fun g => !isBlank g := by
    have newline : ['\n'].filter (fun g => !isBlank g) = [] := by decide
    rw [List.filter_append, newline, List.append_nil, filter_row h.leftmost h.rightmost y]
  rw [unlines, h.lines_eq, cells_eq, List.flatMap_map, List.filter_flatMap, List.filter_flatMap]
  simp only [seen]
  -- The rows left out are empty when what is blank in them is left out.
  rw [h.rows_eq]
  induction (List.range side).reverse with
  | nil => rfl
  | cons y ys ih =>
    rw [List.filter_cons, List.flatMap_cons, ← ih]
    split
    · rw [List.flatMap_cons]
    · rename_i blank
      have nothing : (c.row y).filter (fun g => !isBlank g) = [] := by
        rw [List.filter_eq_nil_iff]
        simpa using blank
      rw [nothing, List.nil_append]

end Cropped

theorem exists_cropped (h : ∃ x y, c.Shows x y) : ∃ left right rows lines,
    Cropped c left right rows lines ∧ c.draw = String.ofList (unlines lines) := by
  have bounded : BddAbove {x | ∃ y, c.Shows x y} :=
    ⟨side, fun x ⟨y, hy⟩ => Nat.le_of_lt (lt_of_shows hy).1⟩
  have least : IsLeast {x | ∃ y, c.Shows x y} _ := ⟨Nat.sInf_mem h, fun x hx => Nat.sInf_le hx⟩
  have greatest : IsGreatest {x | ∃ y, c.Shows x y} _ :=
    ⟨Nat.sSup_mem h bounded, fun x hx => le_csSup bounded hx⟩
  refine ⟨_, _, (List.range side).reverse.filter fun y => !(c.row y).all isBlank, _,
    ⟨least, greatest, ?_, ?_, ?_⟩, draw_eq least greatest⟩
  · exact (List.pairwise_reverse.mpr List.pairwise_lt_range).filter _
  · intro y
    rw [List.mem_filter, exists_visible_iff, List.mem_reverse, List.mem_range]
    simp only [visible_row_iff]
    exact ⟨And.right, fun ⟨x, hx⟩ => ⟨(lt_of_shows hx).2, x, hx⟩⟩
  · rw [List.map_map]
    apply List.map_congr_left
    intro y hy
    obtain ⟨z, hz⟩ := greatest.1
    have lt := (lt_of_shows hz).1
    rw [List.mem_filter, List.mem_reverse, List.mem_range] at hy
    rw [Function.comp_apply, List.range'_eq_map_range, List.map_map, List.map_map]
    apply List.map_congr_left
    intro j hj
    rw [List.mem_range] at hj
    exact (at?_eq_glyph (by omega) hy.1).symm

theorem within_of_shows_tryPuts {writes : List (Char × Position)}
    (h : ((blank side).tryPuts writes).Shows x y) :
    Cell.Within (StartPosition.farthest + 1) ⟨x, y⟩ := by
  have inside : Cell.Within side ⟨x, y⟩ := Cell.within_natCast_iff.mpr (lt_of_shows h)
  rw [Shows, glyph, at?_tryPuts _ _ inside, at?_blank, if_pos inside] at h
  cases hglyph : Mark.glyphAt (marks writes) ⟨x, y⟩ with
  | none =>
    rw [hglyph, Option.none_or, Option.getD_some, isBlank_space] at h
    cases h
  | some g =>
    obtain ⟨m, hm, hcell, -⟩ := Mark.glyphAt_eq_some hglyph
    obtain ⟨write, -, rfl⟩ := List.mem_map.mp hm
    have px : write.2.x.toInt = x := congrArg Cell.x hcell
    have py : write.2.y.toInt = y := congrArg Cell.y hcell
    have hx := toInt_bounds write.2.x
    have hy := toInt_bounds write.2.y
    rw [Cell.within_natCast_iff]
    omega

/-- The text of a canvas, whatever has been written to it. If anything shows, the text has the cells
of the rows in which something does, cut to the columns from the leftmost to the rightmost, and all
of them have addresses; so what shows is neither lost nor doubled nor moved, all lines are as long,
and neither side can be cut any further. If nothing shows, the text is the top left cell. -/
theorem draw_tryPuts (side : Nat) (writes : List (Char × Position)) :
    let c := (blank side).tryPuts writes
    ((∃ x y, c.Shows x y) → ∃ left right rows lines, Cropped c left right rows lines ∧
      (∀ y ∈ rows, ∀ x, x ≤ right → c.get? (Cell.wrap ⟨x, y⟩) = c.at? ⟨x, y⟩) ∧
      c.draw = String.ofList (unlines lines) ∧
      (c.draw.toList.filter fun g => !isBlank g) = (c.cells.filter fun g => !isBlank g) ∧
      (∀ line ∈ lines, line.length = right + 1 - left) ∧
      (∃ line ∈ lines, ∃ g, line.head? = some g ∧ isBlank g = false) ∧
      ∃ line ∈ lines, ∃ g, line.getLast? = some g ∧ isBlank g = false) ∧
    ((∀ x y, ¬c.Shows x y) → side = 0 ∧ c.draw = "" ∨
      ∃ g, c.at? ⟨0, (side - 1 : Nat)⟩ = some g ∧ c.draw = String.ofList [g, '\n'] ∧
        (side ≤ StartPosition.farthest + 1 →
          c.get? (Cell.wrap ⟨0, (side - 1 : Nat)⟩) = some g)) := by
  intro c
  constructor
  · intro h
    obtain ⟨left, right, rows, lines, cropped, drawn⟩ := exists_cropped h
    have kept := cropped.filter_unlines
    refine ⟨left, right, rows, lines, cropped, ?_, drawn, ?_, cropped.length_eq,
      cropped.exists_head, cropped.exists_last⟩
    · intro y hy x hx
      obtain ⟨z, hz⟩ := cropped.rightmost.1
      obtain ⟨w, hw⟩ := (cropped.shown y).mp hy
      have far := (Cell.within_natCast_iff.mp (within_of_shows_tryPuts hz)).1
      have high := (Cell.within_natCast_iff.mp (within_of_shows_tryPuts hw)).2
      exact c.get?_wrap (Cell.within_natCast_iff.mpr ⟨by omega, high⟩) (Nat.le_refl _)
    · rw [drawn, String.toList_ofList, kept]
  · intro h
    have drawn := draw_eq_of_blank h
    by_cases empty : side = 0
    · exact .inl ⟨empty, by rw [drawn, if_pos empty]⟩
    · have corner : 0 < side ∧ side - 1 < side := by omega
      have held : c.at? ⟨0, (side - 1 : Nat)⟩ = some (c.glyph 0 (side - 1)) :=
        at?_eq_glyph corner.1 corner.2
      refine .inr ⟨_, held, by rw [drawn, if_neg empty], fun small => ?_⟩
      exact (c.get?_wrap (Cell.within_natCast_iff.mpr corner) small).trans held

/-- Two letters in opposite corners, after a write beside the canvas. The tab between them is blank,
and its row is left out. -/
theorem draw_tryPuts_of_corners :
    let c := (blank 3).tryPuts [('a', ⟨0, 0⟩), ('x', ⟨3, 0⟩), ('b', ⟨2, 2⟩), ('\t', ⟨1, 1⟩)]
    (∃ x y, c.Shows x y) ∧ c.draw = "  b\na  \n" ∧ c.cells.length = 9 ∧
      ∃ left right rows lines, Cropped c left right rows lines ∧
        c.draw = String.ofList (unlines lines) ∧
        (c.draw.toList.filter fun g => !isBlank g) = (c.cells.filter fun g => !isBlank g) := by
  intro c
  have shows : ∃ x y, c.Shows x y := ⟨0, 0, rfl⟩
  obtain ⟨left, right, rows, lines, cropped, -, drawn, kept, -⟩ := (draw_tryPuts 3 _).1 shows
  exact ⟨shows, by decide +kernel, by decide +kernel, left, right, rows, lines, cropped, drawn, kept⟩

end TurtleArt.Canvas
