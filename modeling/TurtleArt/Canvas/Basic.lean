import TurtleArt.Position
import TurtleArt.Fault

/-! A square grid of characters under Cartesian addresses. The rows are kept from the bottom up,
so that the cell at `⟨x, y⟩` is the `x`th of the `y`th row. The side is part of the type: a canvas
always has `side` rows of `side` cells. -/

namespace TurtleArt

structure Canvas (side : Nat) where
  rows : Vector (Vector Char side) side

def Position.cell? (side : Nat) (p : Position) : Option (Fin side × Fin side) :=
  if h : (0 ≤ p.x.toInt ∧ p.x.toInt < side) ∧ 0 ≤ p.y.toInt ∧ p.y.toInt < side then
    some (⟨p.x.toInt.toNat, by omega⟩, ⟨p.y.toInt.toNat, by omega⟩)
  else
    none

namespace Canvas

variable {side : Nat}

def blank (side : Nat) : Canvas side :=
  ⟨.replicate side (.replicate side ' ')⟩

def entry (c : Canvas side) : Fin side × Fin side → Char :=
  fun (column, row) => c.rows[row][column]

def get? (c : Canvas side) (p : Position) : Option Char :=
  (p.cell? side).map c.entry

/-- Overwrites the cell at `p`. Nothing is clipped: a position off the canvas is an error. -/
def put (c : Canvas side) (glyph : Char) (p : Position) : Except Fault (Canvas side) :=
  match p.cell? side with
  | some (column, row) => .ok ⟨c.rows.set row (c.rows[row].set column glyph)⟩
  | none => .error (.outOfBounds p side)

end Canvas
end TurtleArt
