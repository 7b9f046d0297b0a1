import Mathlib.Tactic.ByContra
import TurtleArt.Canvas.Basic
import TurtleArt.Proofs.Plane

/-! The square that a canvas covers: a write succeeds within it and nowhere else, and changes no
cell but its own. A canvas may be larger than addresses reach, so what it holds is told for all
cells of the plane. -/

namespace TurtleArt

def Cell.index? (side : Nat) (c : Cell) : Option (Fin side × Fin side) :=
  if h : c.Within side then
    some (⟨c.x.toNat, by have := h.1; omega⟩, ⟨c.y.toNat, by have := h.2; omega⟩)
  else
    none

theorem Cell.index?_eq_some {side : Nat} {c : Cell} {column row : Fin side} :
    c.index? side = some (column, row) ↔ c = ⟨column, row⟩ := by
  unfold index?
  split
  · rename_i inside
    obtain ⟨⟨_, _⟩, _, _⟩ := inside
    simp only [Option.some.injEq, Prod.mk.injEq, Fin.ext_iff, Cell.ext_iff]
    omega
  · rename_i outside
    unfold Within at outside
    simp only [reduceCtorEq, false_iff, Cell.ext_iff]
    omega

theorem Cell.index?_eq_none {side : Nat} {c : Cell} : c.index? side = none ↔ ¬c.Within side := by
  simp [index?]

theorem Position.cell?_eq_index? (side : Nat) (p : Position) :
    p.cell? side = p.toCell.index? side := rfl

namespace Canvas

variable {side : Nat} {c d : Canvas side} {glyph : Char} {p q : Position} {f : Fault}

/-- The character in a cell of the plane, whether or not there is an address for it. -/
def at? (c : Canvas side) (e : Cell) : Option Char :=
  (e.index? side).map c.entry

theorem get?_eq_at? (c : Canvas side) (p : Position) : c.get? p = c.at? p.toCell := rfl

theorem get?_wrap {e : Cell} {n : Nat} (c : Canvas side) (h : e.Within n)
    (small : n ≤ StartPosition.farthest + 1) : c.get? e.wrap = c.at? e := by
  rw [get?_eq_at?, Cell.toCell_wrap h small]

theorem at?_eq_none_iff {e : Cell} : c.at? e = none ↔ ¬e.Within side := by
  rw [at?, Option.map_eq_none_iff]
  exact Cell.index?_eq_none

theorem get?_eq_none_iff : c.get? p = none ↔ ¬p.Within side :=
  at?_eq_none_iff (e := p.toCell)

theorem at?_blank (side : Nat) (e : Cell) :
    (blank side).at? e = if e.Within side then some ' ' else none := by
  unfold at? Cell.index?
  split <;> simp [blank, entry]

theorem put_eq_error_iff : c.put glyph p = .error f ↔ ¬p.Within side ∧ f = .outOfBounds p side := by
  unfold put
  rw [Position.cell?_eq_index?]
  cases h : p.toCell.index? side with
  | none =>
    have outside : ¬p.Within side := Cell.index?_eq_none.mp h
    simp only [Except.error.injEq, outside, not_false_eq_true, true_and]
    exact eq_comm
  | some cell =>
    have inside : p.Within side := by
      by_contra outside
      exact absurd (h.symm.trans (Cell.index?_eq_none.mpr outside)) (by simp)
    simp only [reduceCtorEq, inside, not_true_eq_false, false_and]

theorem within_of_put (h : c.put glyph p = .ok d) : p.Within side := by
  by_contra outside
  cases h.symm.trans (put_eq_error_iff.mpr ⟨outside, rfl⟩)

theorem exists_put (glyph : Char) (h : p.Within side) : ∃ d, c.put glyph p = .ok d := by
  cases hput : c.put glyph p with
  | ok d => exact ⟨d, rfl⟩
  | error f => exact absurd h (put_eq_error_iff.mp hput).1

theorem entry_put {cell : Fin side × Fin side} (h : c.put glyph p = .ok d)
    (hp : p.toCell.index? side = some cell) (other : Fin side × Fin side) :
    d.entry other = if other = cell then glyph else c.entry other := by
  obtain ⟨column, row⟩ := cell
  obtain ⟨x, y⟩ := other
  rw [put, Position.cell?_eq_index?, hp] at h
  obtain rfl := Except.ok.inj h
  simp only [entry, Fin.getElem_fin, Vector.getElem_set, Prod.mk.injEq, Fin.ext_iff]
  by_cases hy : (row : Nat) = y
  · by_cases hx : (column : Nat) = x <;> simp [hy, hx, eq_comm]
  · simp [hy, eq_comm]

theorem at?_put (h : c.put glyph p = .ok d) (e : Cell) :
    d.at? e = if e = p.toCell then some glyph else c.at? e := by
  obtain ⟨cell, hp⟩ : ∃ cell, p.toCell.index? side = some cell :=
    Option.ne_none_iff_exists'.mp fun none => Cell.index?_eq_none.mp none (within_of_put h)
  unfold at?
  cases he : e.index? side with
  | none =>
    have other : e ≠ p.toCell := fun same => by simp [← same, he] at hp
    rw [if_neg other, Option.map_none, Option.map_none]
  | some found =>
    have same : e = p.toCell ↔ found = cell := by
      obtain ⟨_, _⟩ := cell
      obtain ⟨_, _⟩ := found
      rw [Cell.index?_eq_some] at hp he
      simp only [hp, he, Cell.mk.injEq, Prod.mk.injEq, Fin.ext_iff]
      omega
    simp only [Option.map_some, entry_put h hp, same]
    split <;> rfl

theorem get?_put (h : c.put glyph p = .ok d) (q : Position) :
    d.get? q = if q = p then some glyph else c.get? q := by
  have same : q.toCell = p.toCell ↔ q = p := ⟨Position.toCell_injective, congrArg _⟩
  simp only [get?_eq_at?, at?_put h, same]

def tryPut (c : Canvas side) (glyph : Char) (p : Position) : Canvas side :=
  match c.put glyph p with
  | .ok d => d
  | .error _ => c

def tryPuts (c : Canvas side) (writes : List (Char × Position)) : Canvas side :=
  writes.foldl (fun c (glyph, p) => c.tryPut glyph p) c

end Canvas
end TurtleArt
