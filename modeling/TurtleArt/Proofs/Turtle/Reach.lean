import TurtleArt.Proofs.Turtle.Walk

/-! How far a turtle gets. Drawing takes it one cell on, in any of the eight directions, and nothing
else does. Closing a branch may take it back by many cells at once, but to a stance that was reached
before, so the saved poses are bounded together with the current one. -/

namespace TurtleArt

namespace Walker

open Cell

variable {p : Cell} {n k : Nat} {w v : Walker} {c : Command} {commands : List Command}

structure Range (p : Cell) (n : Nat) (w : Walker) : Prop where
  stance : p.distance w.stance.cell ≤ n
  saved : ∀ s ∈ w.saved, p.distance s.cell ≤ n

theorem range_place (p : Cell) (d : Direction) : Range p 0 (place p d) where
  stance := Nat.le_of_eq (distance_self p)
  saved s hs := by cases hs

theorem Range.mono (h : Range p n w) (hnk : n ≤ k) : Range p k w where
  stance := Nat.le_trans h.stance hnk
  saved s hs := Nat.le_trans (h.saved s hs) hnk

theorem Range.distance_advance_le (h : Range p n w) :
    p.distance w.stance.advance.cell ≤ n + 1 := by
  have far := distance_triangle p w.stance.cell w.stance.advance.cell
  have near : w.stance.cell.distance w.stance.advance.cell = 1 :=
    distance_advance w.stance.cell w.stance.heading
  have here := h.stance
  omega

theorem Range.mark (h : Range p n w) {m : Mark} (hm : w.mark? c = some m) :
    p.distance m.cell ≤ n + [c].countP Command.isDrawing := by
  cases c with
  | drawLeaf | drawLine =>
    obtain rfl := Option.some.inj hm
    exact h.distance_advance_le
  | turnLeft | turnRight => cases hm
  | pushBranch | popBranch =>
    obtain rfl := Option.some.inj hm
    exact h.stance

theorem Range.next (h : Range p n w) (hnext : w.next? c = some v) :
    Range p (n + [c].countP Command.isDrawing) v := by
  cases c with
  | drawLeaf | drawLine =>
    obtain rfl := Option.some.inj hnext
    exact ⟨h.distance_advance_le, fun s hs => Nat.le_succ_of_le (h.saved s hs)⟩
  | turnLeft | turnRight =>
    obtain rfl := Option.some.inj hnext
    exact ⟨h.stance, h.saved⟩
  | pushBranch =>
    obtain rfl := Option.some.inj hnext
    refine ⟨h.stance, ?_⟩
    intro s hs
    rcases List.mem_cons.mp hs with rfl | hs
    · exact h.stance
    · exact h.saved s hs
  | popBranch =>
    obtain ⟨stance, saved, hsaved, rfl⟩ := next?_popBranch_eq_some hnext
    have back := h.saved
    rw [hsaved] at back
    exact ⟨back stance (by simp), fun s hs => back s (List.mem_cons_of_mem _ hs)⟩

theorem Range.walk (h : Range p n w) (hwalk : w.walk? commands = some v) :
    Range p (n + commands.countP Command.isDrawing) v := by
  induction commands generalizing w n with
  | nil =>
    obtain rfl := Option.some.inj hwalk
    exact h
  | cons c commands ih =>
    rw [walk?_cons] at hwalk
    obtain ⟨u, hnext, hrest⟩ := Option.bind_eq_some_iff.mp hwalk
    rw [← List.singleton_append, List.countP_append, ← Nat.add_assoc]
    exact ih (h.next hnext) hrest

/-- The bound holds of every mark, also of the one left by a command that is not carried through. -/
theorem Range.marks (h : Range p n w) {m : Mark} (hm : m ∈ w.marks commands) :
    p.distance m.cell ≤ n + commands.countP Command.isDrawing := by
  induction commands generalizing w n with
  | nil => cases hm
  | cons c commands ih =>
    rw [← List.singleton_append, List.countP_append, ← Nat.add_assoc]
    rcases List.mem_append.mp hm with here | later
    · have first := h.mark (Option.mem_toList.mp here)
      exact Nat.le_add_right_of_le first
    · cases hnext : w.next? c with
      | none => simp [hnext] at later
      | some v =>
        rw [hnext] at later
        exact ih (h.next hnext) later

end Walker
end TurtleArt
