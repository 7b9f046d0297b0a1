import TurtleArt.Proofs.Canvas.Window
import TurtleArt.Proofs.Turtle.Walk

/-! What a canvas holds after any writes. Each cell of its square has the character of the last
write that went there, or a blank if there was none. A write beside the square is refused and leaves
no trace. The lines of the canvas remain a full square, and a position is found in them at its
height counted from the top. -/

namespace TurtleArt.Canvas

open Mark

variable {side row column : Nat} {c d : Canvas side} {glyph : Char} {p : Position} {e : Cell}

theorem put_eq_ok_tryPut (h : p.Within side) : c.put glyph p = .ok (c.tryPut glyph p) := by
  obtain ⟨d, hput⟩ := exists_put (c := c) glyph h
  rw [tryPut, hput]

theorem put_eq_error_of_outside (h : ¬p.Within side) :
    c.put glyph p = .error (.outOfBounds p side) :=
  put_eq_error_iff.mpr ⟨h, rfl⟩

theorem tryPut_of_outside (h : ¬p.Within side) : c.tryPut glyph p = c := by
  rw [tryPut, put_eq_error_of_outside h]

theorem tryPuts_concat (c : Canvas side) (writes : List (Char × Position)) (glyph : Char)
    (p : Position) : c.tryPuts (writes ++ [(glyph, p)]) = (c.tryPuts writes).tryPut glyph p :=
  List.foldl_append

/-- The marks that writes leave if none of them is refused. -/
def marks (writes : List (Char × Position)) : List Mark :=
  writes.map fun write => ⟨write.2.toCell, write.1⟩

theorem at?_tryPut (h : e.Within side) :
    (c.tryPut glyph p).at? e = (glyphAt [⟨p.toCell, glyph⟩] e).or (c.at? e) := by
  rw [glyphAt_singleton]
  by_cases hp : p.Within side
  · rw [at?_put (put_eq_ok_tryPut hp)]
    split <;> rfl
  · have hne : e ≠ p.toCell := by
      rintro rfl
      exact hp h
    rw [tryPut_of_outside hp, if_neg hne]
    rfl

theorem at?_tryPuts (c : Canvas side) (writes : List (Char × Position)) (h : e.Within side) :
    (c.tryPuts writes).at? e = (glyphAt (marks writes) e).or (c.at? e) := by
  induction writes generalizing c with
  | nil => rfl
  | cons write writes ih =>
    obtain ⟨glyph, p⟩ := write
    -- A later write to the cell hides the first.
    have hidden : glyphAt (marks ((glyph, p) :: writes)) e =
        (glyphAt (marks writes) e).or (glyphAt [⟨p.toCell, glyph⟩] e) :=
      glyphAt_append [⟨p.toCell, glyph⟩] (marks writes) e
    calc ((c.tryPut glyph p).tryPuts writes).at? e
        = (glyphAt (marks writes) e).or ((c.tryPut glyph p).at? e) := ih _
      _ = (glyphAt (marks writes) e).or ((glyphAt [⟨p.toCell, glyph⟩] e).or (c.at? e)) := by
          rw [at?_tryPut h]
      _ = _ := by rw [hidden, Option.or_assoc]

/-- Where a cell stands in the lines: its row from the top, and its column. -/
structure Address (side : Nat) (e : Cell) (row column : Nat) : Prop where
  row_eq : (row : Int) = side - 1 - e.y
  column_eq : (column : Int) = e.x
  row_lt : row < side
  column_lt : column < side

theorem exists_address (h : e.Within side) : ∃ row column, Address side e row column := by
  unfold Cell.Within at h
  exact ⟨side - 1 - e.y.toNat, e.x.toNat, by omega, by omega, by omega, by omega⟩

theorem Address.cell_eq (h : Address side e row column) :
    e = ⟨column, (side - 1 - row : Nat)⟩ := by
  obtain ⟨hrow, hcolumn, row_lt, -⟩ := h
  ext
  · exact hcolumn.symm
  · dsimp only
    omega

theorem length_lines (c : Canvas side) : c.lines.length = side := by
  rw [lines_eq, List.length_map, List.length_reverse, List.length_range]

theorem length_of_mem_lines (c : Canvas side) : ∀ line ∈ c.lines, line.length = side := by
  rw [lines_eq, List.forall_mem_map]
  intro y _
  rw [Canvas.row, List.length_map, List.length_range]

theorem getElem_lines (c : Canvas side) (h : row < c.lines.length) :
    c.lines[row] = c.row (side - 1 - row) := by
  simp [lines_eq]

theorem getElem_row (h : column < (c.row row).length) :
    (c.row row)[column] = c.glyph column row := by
  simp [Canvas.row]

theorem row_put {x y : Nat} (h : c.put glyph p = .ok d) (hp : p.toCell = ⟨x, y⟩) (height : Nat) :
    d.row height = if y = height then (c.row height).set x glyph else c.row height := by
  have written (column : Nat) :
      d.glyph column height = if x = column ∧ y = height then glyph else c.glyph column height := by
    have same : (⟨column, height⟩ : Cell) = ⟨x, y⟩ ↔ x = column ∧ y = height := by
      simp only [Cell.mk.injEq]
      omega
    rw [Canvas.glyph, at?_put h, hp]
    simp only [same]
    split <;> rfl
  by_cases hy : y = height
  · rw [if_pos hy]
    apply List.ext_getElem
    · simp [Canvas.row]
    · intro column hd hc
      rw [List.getElem_set, getElem_row, getElem_row, written]
      simp [hy]
  · simp only [Canvas.row, written, hy, and_false, if_false]

theorem lines_put (address : Address side p.toCell row column) (h : c.put glyph p = .ok d) :
    d.lines = c.lines.modify row fun line => line.set column glyph := by
  have row_lt := address.row_lt
  apply List.ext_getElem
  · rw [List.length_modify, length_lines, length_lines]
  · intro r hd hc
    have r_lt : r < side := by rwa [length_lines] at hd
    have same : side - 1 - row = side - 1 - r ↔ row = r := by omega
    rw [List.getElem_modify, getElem_lines, getElem_lines, row_put h address.cell_eq]
    simp only [same]

theorem getElem?_lines (c : Canvas side) (address : Address side e row column) :
    (c.lines[row]?.bind fun cells => cells[column]?) = c.at? e := by
  have row_lt : row < c.lines.length := by
    rw [length_lines]
    exact address.row_lt
  have column_lt : column < (c.row (side - 1 - row)).length := by
    simpa [Canvas.row] using address.column_lt
  have height_lt := address.row_lt
  rw [List.getElem?_eq_getElem row_lt, Option.bind_some, getElem_lines,
    List.getElem?_eq_getElem column_lt, getElem_row, address.cell_eq]
  exact (at?_eq_glyph address.column_lt (by omega)).symm

/-- A canvas is a map on its square, in which the last write to a cell counts. Whatever has been
written, the next write succeeds within the square and changes the cell at its address; beside the
square it is refused and changes nothing. -/
theorem tryPuts_last_write_wins (side : Nat) (writes : List (Char × Position)) :
    let c := (blank side).tryPuts writes
    (∀ glyph p, p.Within side → ∃ d row column, c.put glyph p = .ok d ∧
      (blank side).tryPuts (writes ++ [(glyph, p)]) = d ∧ Address side p.toCell row column ∧
      d.lines = c.lines.modify row fun line => line.set column glyph) ∧
    (∀ glyph p, ¬p.Within side → c.put glyph p = .error (.outOfBounds p side) ∧
      (blank side).tryPuts (writes ++ [(glyph, p)]) = c) ∧
    (∀ p, c.get? p =
      if p.Within side then some ((glyphAt (marks writes) p.toCell).getD ' ') else none) ∧
    (c.lines.length = side ∧ ∀ line ∈ c.lines, line.length = side) ∧
    ∀ p, p.Within side → ∃ row column, Address side p.toCell row column ∧
      (c.lines[row]?.bind fun cells => cells[column]?) = c.get? p := by
  intro c
  refine ⟨?_, ?_, ?_, ⟨c.length_lines, c.length_of_mem_lines⟩, ?_⟩
  · intro glyph p inside
    obtain ⟨row, column, address⟩ := exists_address inside
    have written : c.put glyph p = .ok (c.tryPut glyph p) := put_eq_ok_tryPut inside
    exact ⟨c.tryPut glyph p, row, column, written, tryPuts_concat .., address,
      lines_put address written⟩
  · intro glyph p outside
    refine ⟨put_eq_error_of_outside outside, ?_⟩
    rw [tryPuts_concat, tryPut_of_outside outside]
  · intro p
    split
    · rename_i inside
      have within : p.toCell.Within side := inside
      rw [get?_eq_at?, at?_tryPuts _ _ within, at?_blank, if_pos within]
      cases glyphAt (marks writes) p.toCell <;> rfl
    · rename_i outside
      exact get?_eq_none_iff.mpr outside
  · intro p inside
    obtain ⟨row, column, address⟩ := exists_address inside
    exact ⟨row, column, address, c.getElem?_lines address⟩

/-- The top left cell is written twice, and a write beside the square comes in between. -/
theorem tryPuts_last_write_wins_of_corner :
    let writes := [('a', ⟨0, 1⟩), ('x', ⟨2, 1⟩), ('b', (⟨0, 1⟩ : Position))]
    let c := (blank 2).tryPuts writes
    Position.Within 2 ⟨1, 0⟩ ∧ ¬Position.Within 2 ⟨0, 2⟩ ∧ c.lines = [['b', ' '], [' ', ' ']] ∧
      (∃ d, c.put 'c' ⟨1, 0⟩ = .ok d ∧ d.lines = [['b', ' '], [' ', 'c']]) ∧
      c.put 'c' ⟨0, 2⟩ = .error (.outOfBounds ⟨0, 2⟩ 2) ∧
      c.get? ⟨0, 1⟩ = some 'b' ∧ c.get? ⟨1, 1⟩ = some ' ' ∧ c.get? ⟨2, 1⟩ = none := by
  intro writes c
  have inside : Position.Within 2 ⟨1, 0⟩ := by decide
  have outside : ¬Position.Within 2 ⟨0, 2⟩ := by decide
  have lines : c.lines = [['b', ' '], [' ', ' ']] := by decide
  obtain ⟨written, refused, cells, -, -⟩ := tryPuts_last_write_wins 2 writes
  obtain ⟨d, row, column, put, -, ⟨hrow, hcolumn, -, -⟩, changed⟩ := written 'c' _ inside
  obtain rfl : row = 1 := Int.ofNat.inj hrow
  obtain rfl : column = 1 := Int.ofNat.inj hcolumn
  refine ⟨inside, outside, lines, ⟨d, put, ?_⟩, (refused 'c' _ outside).1, cells _, cells _,
    cells _⟩
  rw [changed]
  exact congrArg _ lines

end TurtleArt.Canvas
