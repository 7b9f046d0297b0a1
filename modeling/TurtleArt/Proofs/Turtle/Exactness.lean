import TurtleArt.Proofs.Turtle.Simulation
import TurtleArt.Proofs.Turtle.Trail
import TurtleArt.Proofs.Turtle.Translation

/-! When addresses tell a walk exactly. A turtle steps ahead only from where it started or from a
cell it has drawn in. As long as all that it draws is found on the canvas, no step of it can have
led around the addresses, so every mark lies in the very cell that its address stands for. -/

namespace TurtleArt

open Mark

namespace Walker

variable {side : Nat} {w v : Walker} {c : Command} {commands : List Command} {m : Mark}

structure Tame (side : Nat) (w : Walker) : Prop where
  stance : w.stance.cell.Tame side
  saved : ∀ s ∈ w.saved, s.cell.Tame side

theorem tame_place {e : Cell} (h : e.Tame side) (d : Direction) : (place e d).Tame side where
  stance := h
  saved s hs := by cases hs

theorem Tame.mark (h : w.Tame side) (hm : w.mark? c = some m) (inside : m.cell.wrap.Within side) :
    m.cell.wrap.toCell = m.cell := by
  have here : w.stance.cell.distance w.stance.cell ≤ 1 := by simp
  have ahead : w.stance.cell.distance w.stance.advance.cell ≤ 1 :=
    Nat.le_of_eq (w.stance.cell.distance_advance w.stance.heading)
  cases c with
  | drawLeaf | drawLine =>
    obtain rfl := Option.some.inj hm
    exact h.stance _ ahead inside
  | turnLeft | turnRight => cases hm
  | pushBranch | popBranch =>
    obtain rfl := Option.some.inj hm
    exact h.stance _ here inside

theorem Tame.next (h : w.Tame side) (hnext : w.next? c = some v)
    (inside : ∀ m ∈ (w.mark? c).toList, m.cell.wrap.Within side) : v.Tame side := by
  -- A step ends in the cell of its mark, which is on the canvas: there the turtle is tame again.
  have settled {m : Mark} (hm : w.mark? c = some m) : m.cell.Tame side := by
    have onto := inside m (Option.mem_toList.mpr hm)
    exact Cell.tame_of_within onto (h.mark hm onto)
  cases c with
  | drawLeaf | drawLine =>
    obtain rfl := Option.some.inj hnext
    exact ⟨settled rfl, h.saved⟩
  | turnLeft | turnRight =>
    obtain rfl := Option.some.inj hnext
    exact ⟨h.stance, h.saved⟩
  | pushBranch =>
    obtain rfl := Option.some.inj hnext
    exact ⟨h.stance, List.forall_mem_cons.mpr ⟨h.stance, h.saved⟩⟩
  | popBranch =>
    obtain ⟨stance, saved, hsaved, rfl⟩ := next?_popBranch_eq_some hnext
    have kept := h.saved
    rw [hsaved, List.forall_mem_cons] at kept
    exact ⟨kept.1, kept.2⟩

theorem Tame.walk (h : w.Tame side) (clears : w.Clears side commands v) : v.Tame side := by
  obtain ⟨hwalk, inside⟩ := clears
  induction commands generalizing w with
  | nil =>
    obtain rfl := Option.some.inj hwalk
    exact h
  | cons c commands ih =>
    rw [walk?_cons] at hwalk
    obtain ⟨u, hnext, hrest⟩ := Option.bind_eq_some_iff.mp hwalk
    rw [marks_cons hnext, List.forall_mem_append] at inside
    exact ih (h.next hnext inside.1) hrest inside.2

theorem Tame.settled (h : w.Tame side)
    (inside : ∀ m ∈ w.marks commands, m.cell.wrap.Within side) :
    ∀ m ∈ w.marks commands, m.cell.wrap.toCell = m.cell := by
  induction commands generalizing w with
  | nil => simp
  | cons c commands ih =>
    rw [marks, List.forall_mem_append] at inside ⊢
    obtain ⟨here, later⟩ := inside
    refine ⟨fun m hm => h.mark (Option.mem_toList.mp hm) (here m hm), ?_⟩
    cases hnext : w.next? c with
    | none => simp
    | some v =>
      rw [hnext] at later
      exact ih (h.next hnext here) later

theorem draws_eq_of_settled (settled : ∀ m ∈ w.marks commands, m.cell.wrap.toCell = m.cell) :
    w.draws commands = w.marks commands := by
  refine (List.map_congr_left fun m hm => ?_).trans (List.map_id' _)
  rw [settle, settled m hm]

theorem Tame.draws_eq (h : w.Tame side)
    (inside : ∀ m ∈ w.marks commands, m.cell.wrap.Within side) :
    w.draws commands = w.marks commands :=
  draws_eq_of_settled (h.settled inside)

theorem Tame.within_iff (h : w.Tame side) (small : side ≤ StartPosition.farthest) :
    (∀ m ∈ w.marks commands, m.cell.wrap.Within side) ↔
      ∀ m ∈ w.marks commands, m.cell.Within side := by
  constructor
  · intro inside m hm
    exact h.settled inside m hm ▸ inside m hm
  · exact fun inside m hm => (inside m hm).wrap (Nat.le_succ_of_le small)

theorem clears_of_within (hwalk : w.walk? commands = some v)
    (inside : ∀ m ∈ w.marks commands, m.cell.Within side)
    (small : side ≤ StartPosition.farthest) : w.Clears side commands v :=
  ⟨hwalk, fun m hm => (inside m hm).wrap (Nat.le_succ_of_le small)⟩

theorem settled_of_clears {p : Position} {d : Direction} (small : side ≤ StartPosition.farthest)
    (h : (place p.toCell d).Clears side commands v) :
    v.stance.cell.wrap.toCell = v.stance.cell ∧ ∀ s ∈ v.saved, s.cell.wrap.toCell = s.cell := by
  -- The turtle stands in a marked cell or, unmoved, in the cell of an address.
  obtain ⟨standing, saved⟩ := forall_of_marks (P := fun c => c.wrap.toCell = c) h.1
    ((tame_place (p.tame_toCell small) d).settled h.2)
  refine ⟨standing.elim (fun unmoved => ?_) id, saved⟩
  rw [unmoved, p.wrap_toCell]

theorem draws_eq_of_within (inside : ∀ m ∈ w.marks commands, m.cell.Within side)
    (small : side ≤ StartPosition.farthest + 1) : w.draws commands = w.marks commands :=
  draws_eq_of_settled fun m hm => Cell.toCell_wrap (inside m hm) small

theorem draws_place_congr {e e' : Cell} (h : e.wrap = e'.wrap) (d : Direction)
    (commands : List Command) : (place e d).draws commands = (place e' d).draws commands := by
  -- Both walks are the one from the origin, moved by amounts that no address can tell apart.
  rw [draws, draws, marks_place, marks_place e', List.map_map, List.map_map]
  apply List.map_congr_left
  intro m _
  obtain ⟨hx, hy⟩ := Position.mk.inj h
  simp only [Function.comp_apply, settle, Mark.offset, Cell.wrap_offset, hx, hy]

end Walker
end TurtleArt
