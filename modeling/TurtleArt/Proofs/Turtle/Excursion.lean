import TurtleArt.Proofs.Direction
import TurtleArt.Proofs.Turtle.Reach
import TurtleArt.Proofs.Turtle.Translation

/-! Bounds for walks that are put together from others: how far the whole gets and where it ends,
told from the same of its parts. The parts may set out in any direction of a row or a column. Along
a diagonal they would get farther, so no walk turns by less than a quarter. -/

namespace TurtleArt

namespace Walker

open Cell

/-- A turtle that faces along a row or a column carries the commands through, leaves no branch open
and faces along a row or a column again, at most `final` moves from its start. No mark is more than
`radius` moves from there. -/
def Excursion (radius final : Nat) (commands : List Command) : Prop :=
  ∀ (p : Cell) (d : Direction), d.Axial →
    (∃ q e, (place p d).walk? commands = some (place q e) ∧ e.Axial ∧ p.distance q ≤ final) ∧
      ∀ m ∈ (place p d).marks commands, p.distance m.cell ≤ radius

variable {r r' f f' : Nat} {before after commands : List Command} {c : Command}

theorem Excursion.mono (h : Excursion r f commands) (hr : r ≤ r') (hf : f ≤ f') :
    Excursion r' f' commands := by
  intro p d hd
  obtain ⟨⟨q, e, hwalk, he, hq⟩, hmarks⟩ := h p d hd
  exact ⟨⟨q, e, hwalk, he, Nat.le_trans hq hf⟩, fun m hm => Nat.le_trans (hmarks m hm) hr⟩

theorem Excursion.append (h : Excursion r f before) (h' : Excursion r' f' after) :
    Excursion (max r (f + r')) (f + f') (before ++ after) := by
  intro p d hd
  obtain ⟨⟨q, e, hwalk, he, hq⟩, hmarks⟩ := h p d hd
  obtain ⟨⟨q', e', hwalk', he', hq'⟩, hmarks'⟩ := h' q e he
  refine ⟨⟨q', e', ?_, he', ?_⟩, ?_⟩
  · rw [walk?_append, hwalk, Option.bind_some, hwalk']
  · exact Nat.le_trans (distance_triangle p q q') (Nat.add_le_add hq hq')
  · intro m hm
    rw [marks_append hwalk] at hm
    rcases List.mem_append.mp hm with hm | hm
    · exact Nat.le_trans (hmarks m hm) (Nat.le_max_left _ _)
    · have far := Nat.le_trans (distance_triangle p q m.cell) (Nat.add_le_add hq (hmarks' m hm))
      exact Nat.le_trans far (Nat.le_max_right _ _)

theorem excursion_drawLine : Excursion 1 1 [.drawLine] := by
  intro p d hd
  have near : p.distance (p.advance d) ≤ 1 := Nat.le_of_eq (distance_advance p d)
  refine ⟨⟨p.advance d, d, rfl, hd, near⟩, ?_⟩
  intro m hm
  obtain rfl := List.mem_singleton.mp hm
  exact near

theorem Excursion.turnLeft (h : Excursion r f commands) :
    Excursion r f (.turnLeft :: commands) := fun p d hd => h p d.left.left hd.left_left

theorem Excursion.turnRight (h : Excursion r f commands) :
    Excursion r f (.turnRight :: commands) := fun p d hd => h p d.right.right hd.right_right

theorem Excursion.thenLeft (h : Excursion r f commands) :
    Excursion r f (commands ++ [.turnLeft]) := by
  intro p d hd
  obtain ⟨⟨q, e, hwalk, he, hq⟩, hmarks⟩ := h p d hd
  refine ⟨⟨q, e.left.left, ?_, he.left_left, hq⟩, ?_⟩
  · rw [walk?_append, hwalk]
    rfl
  · rw [marks_append hwalk, marks_turnLeft, marks_nil, List.append_nil]
    exact hmarks

theorem excursion_of_origin
    (h : ∀ d : Direction, d.Axial → ∃ v, (place ⟨0, 0⟩ d).walk? commands = some v ∧
      v.saved = [] ∧ v.stance.heading.Axial ∧
      (⟨0, 0⟩ : Cell).distance v.stance.cell ≤ f ∧
        ∀ m ∈ (place ⟨0, 0⟩ d).marks commands, (⟨0, 0⟩ : Cell).distance m.cell ≤ r) :
    Excursion r f commands := by
  have moved (p q : Cell) : p.distance (q.offset p.x p.y) = (⟨0, 0⟩ : Cell).distance q := by
    simp only [distance, Cell.offset]
    congr 2 <;> omega
  intro p d hd
  obtain ⟨⟨⟨q, e⟩, saved⟩, hwalk, rfl, he, hq, hmarks⟩ := h d hd
  refine ⟨⟨q.offset p.x p.y, e, ?_, he, ?_⟩, ?_⟩
  · rw [place_eq_offset, walk?_offset, hwalk]
    rfl
  · rw [moved]
    exact hq
  · rw [marks_place, List.forall_mem_map]
    intro m hm
    change p.distance (m.cell.offset p.x p.y) ≤ r
    rw [moved]
    exact hmarks m hm

end Walker
end TurtleArt
