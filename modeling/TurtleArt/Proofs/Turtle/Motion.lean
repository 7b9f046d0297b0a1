import TurtleArt.Proofs.Turtle.Walk

/-! Motions of the plane that a turtle cannot tell: they take steps to steps and keep the sense of
its turns. A walk from a moved start is the moved walk, and its marks are the moved marks. -/

namespace TurtleArt

structure Motion where
  cell : Cell → Cell
  heading : Direction → Direction
  glyph : Char → Char
  cell_advance : ∀ p d, cell (p.advance d) = (cell p).advance (heading d)
  heading_left : ∀ d, heading d.left = (heading d).left
  heading_right : ∀ d, heading d.right = (heading d).right
  glyph_arrow : ∀ d, glyph d.arrow = (heading d).arrow
  cell_injective : ∀ p q, cell p = cell q → p = q

namespace Motion

variable (f : Motion)

def stance (s : Stance) : Stance :=
  ⟨f.cell s.cell, f.heading s.heading⟩

def mark (m : Mark) : Mark :=
  ⟨f.cell m.cell, f.glyph m.glyph⟩

def walker (w : Walker) : Walker where
  stance := f.stance w.stance
  saved := w.saved.map f.stance

theorem stance_advance (s : Stance) : f.stance s.advance = (f.stance s).advance :=
  Stance.ext (f.cell_advance s.cell s.heading) rfl

theorem stance_left (s : Stance) : f.stance s.left = (f.stance s).left :=
  Stance.ext rfl (f.heading_left s.heading)

theorem stance_right (s : Stance) : f.stance s.right = (f.stance s).right :=
  Stance.ext rfl (f.heading_right s.heading)

theorem mark?_walker (w : Walker) (c : Command) :
    (f.walker w).mark? c = (w.mark? c).map f.mark := by
  cases c with
  | drawLeaf | drawLine =>
    simp only [Walker.mark?, walker, ← stance_advance, Option.map_some, mark, f.glyph_arrow]
    rfl
  | turnLeft | turnRight => rfl
  | pushBranch | popBranch =>
    simp only [Walker.mark?, Option.map_some, mark, f.glyph_arrow]
    rfl

theorem next?_walker (w : Walker) (c : Command) :
    (f.walker w).next? c = (w.next? c).map f.walker := by
  cases c with
  | drawLeaf | drawLine => simp only [Walker.next?, walker, ← stance_advance, Option.map_some]
  | turnLeft | pushBranch =>
    simp only [Walker.next?, walker, ← stance_left, Option.map_some, List.map_cons]
  | turnRight => simp only [Walker.next?, walker, ← stance_right, Option.map_some]
  | popBranch =>
    obtain ⟨stance, saved⟩ := w
    cases saved with
    | nil => rfl
    | cons s saved => simp only [Walker.next?, walker, List.map_cons, stance_right, Option.map_some]

theorem walk?_walker (w : Walker) (commands : List Command) :
    (f.walker w).walk? commands = (w.walk? commands).map f.walker := by
  induction commands generalizing w with
  | nil => rfl
  | cons c commands ih =>
    rw [Walker.walk?_cons, Walker.walk?_cons, next?_walker]
    cases w.next? c with
    | none => rfl
    | some v => exact ih v

theorem marks_walker (w : Walker) (commands : List Command) :
    (f.walker w).marks commands = (w.marks commands).map f.mark := by
  induction commands generalizing w with
  | nil => rfl
  | cons c commands ih =>
    rw [Walker.marks, Walker.marks, mark?_walker, next?_walker, List.map_append]
    congr 1
    · cases w.mark? c <;> rfl
    · cases w.next? c with
      | none => rfl
      | some v => exact ih v

theorem exists_mem_map_mark {marks : List Mark} {P : Mark → Prop}
    (h : ∃ m ∈ marks, P (f.mark m)) : ∃ m ∈ marks.map f.mark, P m := by
  obtain ⟨m, hm, holds⟩ := h
  exact ⟨f.mark m, List.mem_map_of_mem hm, holds⟩

theorem glyphAt_map_mark (marks : List Mark) (p : Cell) :
    Mark.glyphAt (marks.map f.mark) (f.cell p) = (Mark.glyphAt marks p).map f.glyph := by
  have same (m : Mark) : (f.mark m).cell = f.cell p ↔ m.cell = p :=
    ⟨f.cell_injective m.cell p, congrArg f.cell⟩
  rw [Mark.glyphAt, Mark.glyphAt, ← List.map_reverse, List.find?_map]
  simp only [Function.comp_def, same, Option.map_map]
  rfl

end Motion
end TurtleArt
