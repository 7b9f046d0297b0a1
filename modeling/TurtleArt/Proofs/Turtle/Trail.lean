import TurtleArt.Proofs.Turtle.Walk

/-! The marks of a walk leave no row out: a turtle steps to a neighbouring cell, and a branch ends
in the cell in which it began, which was marked then. -/

namespace TurtleArt

namespace Mark

variable {l : List Mark} {m : Mark}

def Unbroken (marks : List Mark) : Prop :=
  ∀ a ∈ marks, ∀ b ∈ marks, ∀ y, a.cell.y ≤ y → y ≤ b.cell.y → ∃ m ∈ marks, m.cell.y = y

theorem unbroken_nil : Unbroken [] := by
  rintro a ⟨⟩

theorem unbroken_singleton (m : Mark) : Unbroken [m] := by
  intro a ha b hb y hay hyb
  rw [List.mem_singleton] at ha hb
  subst ha hb
  exact ⟨b, by simp, Int.le_antisymm hay hyb⟩

theorem Unbroken.append_near (h : Unbroken l)
    (near : ∃ a ∈ l, m.cell.y ≤ a.cell.y + 1 ∧ a.cell.y ≤ m.cell.y + 1) : Unbroken (l ++ [m]) := by
  obtain ⟨e, he, hlow, hhigh⟩ := near
  have old {y : Int} (hy : ∃ a ∈ l, a.cell.y = y) : ∃ a ∈ l ++ [m], a.cell.y = y := by
    obtain ⟨a, ha, hay⟩ := hy
    exact ⟨a, List.mem_append_left _ ha, hay⟩
  have new {y : Int} (hy : m.cell.y = y) : ∃ a ∈ l ++ [m], a.cell.y = y :=
    ⟨m, by simp, hy⟩
  intro a ha b hb y hay hyb
  rw [List.mem_append, List.mem_singleton] at ha hb
  -- A row between the new mark and an old one lies between the neighbour and the old one, unless
  -- it is the row of the new mark.
  rcases ha with ha | rfl <;> rcases hb with hb | rfl
  · exact old (h a ha b hb y hay hyb)
  · by_cases hy : y ≤ e.cell.y
    · exact old (h a ha e he y hay hy)
    · exact new (by omega)
  · by_cases hy : e.cell.y ≤ y
    · exact old (h e he b hb y hy hyb)
    · exact new (by omega)
  · exact new (Int.le_antisymm hay hyb)

end Mark

namespace Walker

open Mark

variable {marks : List Mark} {w v : Walker} {c : Command} {commands : List Command}

/-- The marks left on the way to a turtle: it stands in a marked cell, unless nothing is marked,
and so do the poses it has saved. -/
structure Trail (marks : List Mark) (w : Walker) : Prop where
  unbroken : Unbroken marks
  standing : marks ≠ [] → ∃ m ∈ marks, m.cell = w.stance.cell
  saved : ∀ s ∈ w.saved, ∃ m ∈ marks, m.cell = s.cell

theorem trail_place (p : Cell) (d : Direction) : Trail [] (place p d) where
  unbroken := unbroken_nil
  standing h := absurd rfl h
  saved s hs := by cases hs

theorem Trail.unbroken_append {m : Mark} (h : Trail marks w)
    (near : m.cell.y ≤ w.stance.cell.y + 1 ∧ w.stance.cell.y ≤ m.cell.y + 1) :
    Unbroken (marks ++ [m]) := by
  by_cases empty : marks = []
  · rw [empty]
    exact unbroken_singleton m
  · obtain ⟨a, ha, hcell⟩ := h.standing empty
    exact h.unbroken.append_near ⟨a, ha, by rwa [hcell]⟩

theorem Trail.saved_append (h : Trail marks w) (l : List Mark) :
    ∀ s ∈ w.saved, ∃ m ∈ marks ++ l, m.cell = s.cell := by
  intro s hs
  obtain ⟨m, hm, hcell⟩ := h.saved s hs
  exact ⟨m, List.mem_append_left l hm, hcell⟩

theorem near_advance (s : Stance) :
    s.advance.cell.y ≤ s.cell.y + 1 ∧ s.cell.y ≤ s.advance.cell.y + 1 := by
  obtain ⟨p, d⟩ := s
  cases d <;> simp only [Stance.advance, Cell.advance, Direction.step] <;> omega

theorem Trail.next (h : Trail marks w) (hnext : w.next? c = some v) :
    Trail (marks ++ (w.mark? c).toList) v := by
  have here : w.stance.cell.y ≤ w.stance.cell.y + 1 := by omega
  cases c with
  | drawLeaf | drawLine =>
    obtain rfl := Option.some.inj hnext
    exact ⟨h.unbroken_append (near_advance w.stance),
      fun _ => ⟨_, List.mem_append_right _ (List.mem_singleton_self _), rfl⟩, h.saved_append _⟩
  | turnLeft | turnRight =>
    obtain rfl := Option.some.inj hnext
    rw [mark?, Option.toList_none, List.append_nil]
    exact ⟨h.unbroken, h.standing, h.saved⟩
  | pushBranch =>
    obtain rfl := Option.some.inj hnext
    have marked : ∃ m ∈ marks ++ (w.mark? .pushBranch).toList, m.cell = w.stance.cell :=
      ⟨_, List.mem_append_right _ (List.mem_singleton_self _), rfl⟩
    refine ⟨h.unbroken_append ⟨here, here⟩, fun _ => marked, ?_⟩
    intro s hs
    rcases List.mem_cons.mp hs with rfl | hs
    · exact marked
    · exact h.saved_append _ s hs
  | popBranch =>
    obtain ⟨stance, saved, hsaved, rfl⟩ := next?_popBranch_eq_some hnext
    -- The pose returned to was saved where its mark was left.
    have kept := h.saved_append (w.mark? .popBranch).toList
    rw [hsaved] at kept
    exact ⟨h.unbroken_append ⟨here, here⟩, fun _ => kept stance (by simp),
      fun s hs => kept s (List.mem_cons_of_mem _ hs)⟩

theorem Trail.walk (h : Trail marks w) (hwalk : w.walk? commands = some v) :
    Trail (marks ++ w.marks commands) v := by
  induction commands generalizing marks w with
  | nil =>
    obtain rfl := Option.some.inj hwalk
    rwa [marks_nil, List.append_nil]
  | cons c commands ih =>
    rw [walk?_cons] at hwalk
    obtain ⟨u, hnext, hrest⟩ := Option.bind_eq_some_iff.mp hwalk
    rw [marks_cons hnext, ← List.append_assoc]
    exact ih (h.next hnext) hrest

theorem unbroken_marks {p : Cell} {d : Direction}
    (h : (place p d).walk? commands = some v) : Unbroken ((place p d).marks commands) :=
  ((trail_place p d).walk h).unbroken

theorem cell_eq_of_marks_eq_nil (hwalk : w.walk? commands = some v)
    (unmarked : w.marks commands = []) : v.stance.cell = w.stance.cell := by
  induction commands generalizing w with
  | nil =>
    obtain rfl := Option.some.inj hwalk
    rfl
  | cons c commands ih =>
    rw [walk?_cons] at hwalk
    obtain ⟨u, hnext, hrest⟩ := Option.bind_eq_some_iff.mp hwalk
    rw [marks_cons hnext] at unmarked
    obtain ⟨here, later⟩ := List.append_eq_nil_iff.mp unmarked
    rw [ih hrest later]
    -- Only a turn leaves no mark.
    cases c with
    | turnLeft | turnRight =>
      obtain rfl := Option.some.inj hnext
      rfl
    | _ => cases here

theorem standing_of_walk {e : Cell} {d : Direction}
    (hwalk : (place e d).walk? commands = some v) :
    v.stance.cell = e ∨ ∃ m ∈ (place e d).marks commands, m.cell = v.stance.cell := by
  by_cases unmarked : (place e d).marks commands = []
  · exact .inl (cell_eq_of_marks_eq_nil hwalk unmarked)
  · exact .inr (((trail_place e d).walk hwalk).standing unmarked)

theorem forall_of_marks {P : Cell → Prop} {e : Cell} {d : Direction}
    (hwalk : (place e d).walk? commands = some v)
    (marked : ∀ m ∈ (place e d).marks commands, P m.cell) :
    (v.stance.cell = e ∨ P v.stance.cell) ∧ ∀ s ∈ v.saved, P s.cell := by
  constructor
  · rcases standing_of_walk hwalk with unmoved | ⟨m, hm, hcell⟩
    · exact .inl unmoved
    · exact .inr (hcell ▸ marked m hm)
  · intro s hs
    obtain ⟨m, hm, hcell⟩ := ((trail_place e d).walk hwalk).saved s hs
    exact hcell ▸ marked m hm

theorem exists_walk_take {e : Cell} {d : Direction}
    (hwalk : (place e d).walk? commands = some v) (k : Nat) :
    ∃ u, (place e d).walk? (commands.take k) = some u ∧
      (u.stance.cell = e ∨ ∃ m ∈ (place e d).marks commands, m.cell = u.stance.cell) := by
  rw [← List.take_append_drop k commands, walk?_append] at hwalk
  obtain ⟨u, hu, -⟩ := Option.bind_eq_some_iff.mp hwalk
  have whole := marks_append hu (commands.drop k)
  rw [List.take_append_drop] at whole
  refine ⟨u, hu, (standing_of_walk hu).imp_right ?_⟩
  rintro ⟨m, hm, hcell⟩
  exact ⟨m, whole ▸ List.mem_append_left _ hm, hcell⟩

end Walker
end TurtleArt
