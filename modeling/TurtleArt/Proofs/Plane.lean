import TurtleArt.StartPosition
import TurtleArt.Turtle.Pose

/-! The plane as it is drawn on paper: its cells have any integers as coordinates, and a step never
wraps around. An address of 32 bits stands for one of its cells, and a cell is found under one
address, so a path in the plane is followed by the addresses of its cells. A path that starts among
the addresses is told by them exactly, for as long as it does not leave the canvas: to be found
there under the address of another cell, it would have to go all the way around. -/

namespace TurtleArt

@[ext]
structure Cell where
  x : Int
  y : Int
  deriving DecidableEq, Repr

@[ext]
structure Stance where
  cell : Cell
  heading : Direction
  deriving DecidableEq, Repr

namespace Cell

def advance (c : Cell) (d : Direction) : Cell :=
  ⟨c.x + d.step.1, c.y + d.step.2⟩

def offset (c : Cell) (dx dy : Int) : Cell :=
  ⟨c.x + dx, c.y + dy⟩

def Within (side : Nat) (c : Cell) : Prop :=
  (0 ≤ c.x ∧ c.x < side) ∧ 0 ≤ c.y ∧ c.y < side

instance (side : Nat) (c : Cell) : Decidable (c.Within side) :=
  inferInstanceAs (Decidable (_ ∧ _))

theorem within_natCast_iff {side x y : Nat} : Within side ⟨x, y⟩ ↔ x < side ∧ y < side := by
  simp only [Within]
  omega

/-- The number of king's moves from one cell to another. -/
def distance (c e : Cell) : Nat :=
  max (e.x - c.x).natAbs (e.y - c.y).natAbs

@[simp] theorem distance_self (c : Cell) : c.distance c = 0 := by
  simp [distance]

theorem distance_le_iff {c e : Cell} {n : Nat} :
    c.distance e ≤ n ↔ (c.x - n ≤ e.x ∧ e.x ≤ c.x + n) ∧ c.y - n ≤ e.y ∧ e.y ≤ c.y + n := by
  unfold distance
  omega

theorem distance_triangle (c e f : Cell) : c.distance f ≤ c.distance e + e.distance f := by
  have first := distance_le_iff.mp (Nat.le_refl (c.distance e))
  have second := distance_le_iff.mp (Nat.le_refl (e.distance f))
  rw [distance_le_iff]
  omega

theorem distance_advance (c : Cell) (d : Direction) : c.distance (c.advance d) = 1 := by
  unfold distance advance
  cases d <;> simp only [Direction.step] <;> omega

end Cell

namespace Stance

def advance (s : Stance) : Stance :=
  { s with cell := s.cell.advance s.heading }

def left (s : Stance) : Stance :=
  { s with heading := s.heading.left }

def right (s : Stance) : Stance :=
  { s with heading := s.heading.right }

end Stance

section Addresses

open StartPosition

variable {c e : Cell} {p q : Position} {side : Nat}

def Cell.wrap (c : Cell) : Position :=
  ⟨.ofInt c.x, .ofInt c.y⟩

def Stance.wrap (s : Stance) : Pose :=
  ⟨s.cell.wrap, s.heading⟩

def Position.toCell (p : Position) : Cell :=
  ⟨p.x.toInt, p.y.toInt⟩

def Pose.stance (s : Pose) : Stance :=
  ⟨s.position.toCell, s.heading⟩

@[simp] theorem Position.wrap_toCell (p : Position) : p.toCell.wrap = p :=
  Position.ext (Int32.ofInt_toInt p.x) (Int32.ofInt_toInt p.y)

@[simp] theorem Pose.wrap_stance (s : Pose) : s.stance.wrap = s :=
  Pose.ext s.position.wrap_toCell rfl

theorem Position.toCell_injective (h : p.toCell = q.toCell) : p = q := by
  rw [← p.wrap_toCell, h, q.wrap_toCell]

theorem Cell.wrap_advance (c : Cell) (d : Direction) : (c.advance d).wrap = c.wrap.advance d :=
  Position.ext (Int32.ofInt_add ..) (Int32.ofInt_add ..)

theorem Cell.wrap_offset (c : Cell) (dx dy : Int) :
    (c.offset dx dy).wrap = ⟨c.wrap.x + .ofInt dx, c.wrap.y + .ofInt dy⟩ :=
  Position.ext (Int32.ofInt_add ..) (Int32.ofInt_add ..)

def Position.Within (side : Nat) (p : Position) : Prop :=
  p.toCell.Within side

instance (side : Nat) (p : Position) : Decidable (p.Within side) :=
  inferInstanceAs (Decidable (p.toCell.Within side))

theorem toInt_bounds (a : Int32) : -farthest - 1 ≤ a.toInt ∧ a.toInt ≤ farthest := by
  have low := a.le_toInt
  have high := a.toInt_lt
  unfold farthest
  omega

theorem toInt_ofInt_of_bounds {a : Int} (low : -farthest - 1 ≤ a) (high : a ≤ farthest) :
    (Int32.ofInt a).toInt = a := by
  unfold farthest at low high
  exact Int32.toInt_ofInt_of_le (by omega) (by omega)

/-- A coordinate next to those of the addresses is read back, unless as a negative one or, coming
from below all of them, as the greatest. -/
theorem toInt_ofInt_of_near {a : Int} (low : -farthest - 2 ≤ a) (high : a ≤ farthest + 2)
    (nonneg : 0 ≤ (Int32.ofInt a).toInt)
    (least : a = -farthest - 2 → (Int32.ofInt a).toInt < farthest) : (Int32.ofInt a).toInt = a := by
  have value : (Int32.ofInt a).toInt =
      if a % 4294967296 < 2147483648 then a % 4294967296 else a % 4294967296 - 4294967296 :=
    Int32.toInt_ofInt
  unfold farthest at low high least
  split at value <;> omega

theorem Cell.toCell_wrap_of_bounds (hx : -farthest - 1 ≤ c.x ∧ c.x ≤ farthest)
    (hy : -farthest - 1 ≤ c.y ∧ c.y ≤ farthest) : c.wrap.toCell = c :=
  Cell.ext (toInt_ofInt_of_bounds hx.1 hx.2) (toInt_ofInt_of_bounds hy.1 hy.2)

theorem Cell.toCell_wrap (h : c.Within side) (small : side ≤ farthest + 1) :
    c.wrap.toCell = c := by
  obtain ⟨⟨_, _⟩, _, _⟩ := h
  exact toCell_wrap_of_bounds (by omega) (by omega)

theorem Cell.Within.wrap (h : c.Within side) (small : side ≤ farthest + 1) :
    c.wrap.Within side := by
  rw [Position.Within, toCell_wrap h small]
  exact h

theorem Position.toCell_advance (p : Position) (d : Direction)
    (hx : -farthest - 1 ≤ (p.toCell.advance d).x ∧ (p.toCell.advance d).x ≤ farthest)
    (hy : -farthest - 1 ≤ (p.toCell.advance d).y ∧ (p.toCell.advance d).y ≤ farthest) :
    (p.advance d).toCell = p.toCell.advance d := by
  rw [← Cell.toCell_wrap_of_bounds hx hy, Cell.wrap_advance, p.wrap_toCell]

/-- Around the cell, an address on the canvas stands for no other cell than its own. -/
def Cell.Tame (side : Nat) (c : Cell) : Prop :=
  ∀ e, c.distance e ≤ 1 → e.wrap.Within side → e.wrap.toCell = e

theorem Cell.Tame.within (h : c.Tame side) (near : c.distance e ≤ 1)
    (inside : e.wrap.Within side) : e.Within side :=
  h e near inside ▸ inside

theorem Cell.tame_of_bounds (low : -farthest - 1 ≤ c.x ∧ -farthest - 1 ≤ c.y)
    (high : c.x ≤ farthest + 1 ∧ c.y ≤ farthest + 1)
    (least : side ≤ farthest ∨ -farthest ≤ c.x ∧ -farthest ≤ c.y) : c.Tame side := by
  intro e near inside
  obtain ⟨⟨_, _⟩, _, _⟩ := distance_le_iff.mp near
  -- The coordinates of `e` lie next to those of the addresses, and their own addresses are not
  -- negative, so they are read back.
  obtain ⟨⟨_, _⟩, _, _⟩ : (0 ≤ (Int32.ofInt e.x).toInt ∧ (Int32.ofInt e.x).toInt < side) ∧
    0 ≤ (Int32.ofInt e.y).toInt ∧ (Int32.ofInt e.y).toInt < side := inside
  ext
  · exact toInt_ofInt_of_near (by omega) (by omega) (by omega) (by omega)
  · exact toInt_ofInt_of_near (by omega) (by omega) (by omega) (by omega)

theorem Position.tame_toCell (p : Position) (small : side ≤ farthest) : p.toCell.Tame side := by
  have x := toInt_bounds p.x
  have y := toInt_bounds p.y
  exact Cell.tame_of_bounds ⟨x.1, y.1⟩ ⟨Int.le_add_one x.2, Int.le_add_one y.2⟩ (.inl small)

/-- The cell of an address, with the least coordinate read as the one beyond the greatest. -/
def Position.lift (p : Position) : Cell :=
  ⟨-(-p.x).toInt, -(-p.y).toInt⟩

@[simp] theorem Position.wrap_lift (p : Position) : p.lift.wrap = p := by
  have coordinate (a : Int32) : Int32.ofInt (-(-a).toInt) = a := by
    rw [Int32.ofInt_neg, Int32.ofInt_toInt, Int32.neg_neg]
  exact Position.ext (coordinate p.x) (coordinate p.y)

theorem Position.tame_lift (side : Nat) (p : Position) : p.lift.Tame side := by
  -- Read this way, no coordinate is the least, and a step below it is negative at any rate.
  have bounds (a : Int32) : -farthest ≤ -(-a).toInt ∧ -(-a).toInt ≤ farthest + 1 := by
    have := toInt_bounds (-a)
    omega
  have above {a : Int} (h : -farthest ≤ a) : -farthest - 1 ≤ a := by omega
  have x := bounds p.x
  have y := bounds p.y
  exact Cell.tame_of_bounds ⟨above x.1, above y.1⟩ ⟨x.2, y.2⟩ (.inr ⟨x.1, y.1⟩)

theorem Cell.tame_of_within (inside : c.wrap.Within side) (settled : c.wrap.toCell = c) :
    c.Tame side := by
  have x := (toInt_bounds c.wrap.x).2
  have y := (toInt_bounds c.wrap.y).2
  have cx : c.wrap.x.toInt = c.x := congrArg Cell.x settled
  have cy : c.wrap.y.toInt = c.y := congrArg Cell.y settled
  obtain ⟨⟨_, _⟩, _, _⟩ : c.Within side := settled ▸ inside
  exact tame_of_bounds ⟨by omega, by omega⟩ ⟨by omega, by omega⟩ (.inr ⟨by omega, by omega⟩)

end Addresses

namespace StartPosition

def cell (side : Nat) : StartPosition → Cell
  | middleBottom => ⟨(side / 2 : Nat), 0⟩
  | central => ⟨(side / 2 : Nat), (side / 2 : Nat)⟩
  | bottomRight => ⟨side - 1, 0⟩
  | fixed x y => ⟨x.toInt, y.toInt⟩

variable {side : Nat}

theorem coordinate_of_le {n : Nat} (h : n ≤ farthest) : coordinate n = .ofInt n := by
  rw [coordinate, Nat.min_eq_left h, Int32.ofInt_eq_ofNat]

theorem wrap_cell (start : StartPosition) (small : side ≤ farthest) :
    (start.cell side).wrap = start.origin side := by
  have half : side / 2 ≤ farthest := Nat.le_trans (Nat.div_le_self side 2) small
  cases start with
  | middleBottom | central => simp only [origin, coordinate_of_le half]; rfl
  | bottomRight =>
    have last : Int32.ofInt (side - 1) = coordinate side - 1 := by
      rw [coordinate_of_le small, Int32.ofInt_sub]
      rfl
    exact Position.ext last rfl
  | fixed x y => exact Position.wrap_toCell ⟨x, y⟩

theorem toCell_origin (start : StartPosition) (small : side ≤ farthest) :
    (start.origin side).toCell = start.cell side := by
  rw [← start.wrap_cell small]
  cases start with
  | fixed x y => exact congrArg Position.toCell (Position.wrap_toCell ⟨x, y⟩)
  | _ => exact Cell.toCell_wrap_of_bounds (by simp only [cell]; omega) (by simp only [cell]; omega)

end StartPosition
end TurtleArt
