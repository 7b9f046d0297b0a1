import Mathlib.Data.List.Basic
import TurtleArt.Canvas.Crop
import TurtleArt.Proofs.Turtle.View

/-! Texts made up of lines of one width. The text determines its lines, as no line has a newline in
it. -/

namespace TurtleArt

namespace Canvas

theorem unlines_cons (line : List Char) (lines : List (List Char)) :
    unlines (line :: lines) = line ++ '\n' :: unlines lines := by
  rw [unlines, List.flatMap_cons, List.append_assoc]
  rfl

theorem takeWhile_unlines_cons {line : List Char} (plain : '\n' ∉ line)
    (lines : List (List Char)) :
    (unlines (line :: lines)).takeWhile (fun c => c ≠ '\n') = line := by
  have visible : ∀ c ∈ line, decide (c ≠ '\n') = true := by
    intro c hc
    exact decide_eq_true fun newline => plain (newline ▸ hc)
  rw [unlines_cons, List.takeWhile_append_of_pos visible]
  exact List.append_nil line

theorem unlines_injective {lines lines' : List (List Char)} (plain : ∀ line ∈ lines, '\n' ∉ line)
    (plain' : ∀ line ∈ lines', '\n' ∉ line) (h : unlines lines = unlines lines') :
    lines = lines' := by
  induction lines generalizing lines' with
  | nil =>
    cases lines' with
    | nil => rfl
    | cons line' lines' => simp [unlines] at h
  | cons line lines ih =>
    cases lines' with
    | nil => simp [unlines] at h
    | cons line' lines' =>
      rw [List.forall_mem_cons] at plain plain'
      have first := congrArg (List.takeWhile fun c => c ≠ '\n') h
      rw [takeWhile_unlines_cons plain.1, takeWhile_unlines_cons plain'.1] at first
      subst first
      rw [unlines_cons, unlines_cons] at h
      have rest := List.append_cancel_left h
      rw [ih plain.2 plain'.2 (List.cons.inj rest).2]

/-- The character in a column of a line, both counted from zero, the lines from the top. -/
def charAt (lines : List (List Char)) (line column : Nat) : Option Char :=
  lines[line]?.bind (·[column]?)

structure Layout (art : String) (height width : Nat) (lines : List (List Char)) : Prop where
  text : art = String.ofList (unlines lines)
  height : lines.length = height
  width : ∀ line ∈ lines, line.length = width
  plain : ∀ line ∈ lines, '\n' ∉ line

namespace Layout

variable {art : String} {height width height' width' : Nat} {lines lines' : List (List Char)}

theorem lines_unique (h : Layout art height width lines) (h' : Layout art height' width' lines') :
    lines = lines' :=
  unlines_injective h.plain h'.plain (String.ofList_injective (h.text.symm.trans h'.text))

theorem size_unique (h : Layout art height width lines) (h' : Layout art height' width' lines)
    (positive : 0 < height) : height = height' ∧ width = width' := by
  obtain ⟨line, hline⟩ := List.exists_mem_of_length_pos (h.height.symm ▸ positive)
  exact ⟨h.height.symm.trans h'.height, (h.width line hline).symm.trans (h'.width line hline)⟩

end Layout

end Canvas

namespace Mark

open Canvas

variable {marks : List Mark} {left right bottom top : Int}

theorem layout_view (box : Box marks left right bottom top)
    (arrow : ∀ m ∈ marks, ∃ d : Direction, m.glyph = d.arrow) :
    Layout (String.ofList (unlines (view marks left right bottom top))) (top + 1 - bottom).toNat
      (right + 1 - left).toNat (view marks left right bottom top) where
  text := rfl
  height := by
    have height := length_view box
    omega
  width line hline := by
    have width := length_of_mem_view box hline
    omega
  plain _ := newline_notMem_view arrow

theorem charAt_view {i j : Nat} (hi : i < (top + 1 - bottom).toNat)
    (hj : j < (right + 1 - left).toNat) :
    charAt (view marks left right bottom top) i j =
      some ((glyphAt marks ⟨left + j, top - i⟩).getD ' ') := by
  simp [charAt, view, hi, hj]

end Mark
end TurtleArt
