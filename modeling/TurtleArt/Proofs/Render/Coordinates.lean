import TurtleArt.Proofs.Render.Outcome
import TurtleArt.Proofs.Turtle.Trail
import TurtleArt.Proofs.Turtle.Trial

/-! The coordinates that a drawing computes. A turtle steps ahead only from its start or from a cell
it has drawn in, and the first step that leads off the canvas is its last. So all its coordinates
lie next to those of the start or of the canvas, and 32 bits hold them, however long the word is. -/

namespace TurtleArt

open StartPosition

namespace Cell

variable {side : Nat} {origin c : Cell} {d : Direction}

/-- Each coordinate is at most one off that of the start, or at most one off the canvas. -/
structure Close (c : Cell) (side : Nat) (origin : Cell) : Prop where
  x : (origin.x - 1 ≤ c.x ∧ c.x ≤ origin.x + 1) ∨ (-1 ≤ c.x ∧ c.x ≤ side)
  y : (origin.y - 1 ≤ c.y ∧ c.y ≤ origin.y + 1) ∨ (-1 ≤ c.y ∧ c.y ≤ side)

theorem close_of_stand (h : c = origin ∨ c.Within side) : c.Close side origin := by
  rcases h with rfl | ⟨hx, hy⟩ <;> constructor <;> omega

theorem close_of_step (h : c = origin ∨ c.Within side) (d : Direction) :
    (c.advance d).Close side origin := by
  have unit : (-1 ≤ d.step.1 ∧ d.step.1 ≤ 1) ∧ -1 ≤ d.step.2 ∧ d.step.2 ≤ 1 := by
    cases d <;> decide
  rcases h with rfl | ⟨hx, hy⟩ <;> constructor <;> simp only [advance] <;> omega

end Cell

namespace Position

variable {side : Nat} {origin p : Position}

theorem toCell_advance_of_close (hside : (side : Int) ≤ Int32.maxValue.toInt)
    (hx : origin.x ≠ .minValue ∧ origin.x ≠ .maxValue)
    (hy : origin.y ≠ .minValue ∧ origin.y ≠ .maxValue) {d : Direction}
    (close : (p.toCell.advance d).Close side origin.toCell) :
    (p.advance d).toCell = p.toCell.advance d := by
  have least : Int32.minValue.toInt = -farthest - 1 := rfl
  have greatest : Int32.maxValue.toInt = farthest := rfl
  have inner (a : Int32) (h : a ≠ .minValue ∧ a ≠ .maxValue) :
      -farthest ≤ a.toInt ∧ a.toInt < farthest := by
    have := toInt_bounds a
    have := mt Int32.toInt_inj.mp h.1
    have := mt Int32.toInt_inj.mp h.2
    omega
  have x : -farthest ≤ origin.toCell.x ∧ origin.toCell.x < farthest := inner origin.x hx
  have y : -farthest ≤ origin.toCell.y ∧ origin.toCell.y < farthest := inner origin.y hy
  obtain ⟨hcx, hcy⟩ := close
  exact p.toCell_advance d (by omega) (by omega)

end Position

namespace Turtle

variable {side : Nat} {t u : Turtle side} {origin : Position} {heading : Direction}
  {canvas : Canvas side} {commands : List Command} {c : Command} {x : Failure side}

/-- The turtle stands where it started or on the canvas, and all poses it has saved are on the
canvas. -/
structure Anchored (origin : Position) (t : Turtle side) : Prop where
  pose : t.pose.position = origin ∨ t.pose.position.Within side
  saved : ∀ s ∈ t.saved, s.position.Within side

def halt (t : Turtle side) (commands : List Command) : Turtle side :=
  match t.run commands with
  | .ok u => u
  | .error x => x.turtle

def cells (t : Turtle side) : List Position :=
  t.pose.position :: t.saved.map Pose.position

theorem anchored_of_run (h : (place canvas origin heading).run commands = .ok u) :
    u.Anchored origin := by
  obtain ⟨v, ⟨hwalk, inside⟩, there⟩ :=
    clears_of_run (follows_place_toCell canvas origin heading) h
  obtain ⟨standing, saved⟩ :=
    Walker.forall_of_marks (P := fun c => c.wrap.Within side) hwalk inside
  constructor
  · rw [there.pose]
    exact standing.imp_left fun unmoved => (congrArg Cell.wrap unmoved).trans origin.wrap_toCell
  · rw [there.saved]
    exact List.forall_mem_map.mpr saved

theorem Anchored.stand (h : t.Anchored origin) :
    t.pose.position.toCell = origin.toCell ∨ t.pose.position.toCell.Within side :=
  h.pose.imp_left (congrArg Position.toCell)

theorem Anchored.close (h : t.Anchored origin) :
    ∀ p ∈ t.cells, p.toCell.Close side origin.toCell := by
  rw [cells, List.forall_mem_cons, List.forall_mem_map]
  exact ⟨Cell.close_of_stand h.stand, fun s hs => Cell.close_of_stand (.inr (h.saved s hs))⟩

section Bounded

variable (hside : (side : Int) ≤ Int32.maxValue.toInt)
  (hx : origin.x ≠ .minValue ∧ origin.x ≠ .maxValue)
  (hy : origin.y ≠ .minValue ∧ origin.y ≠ .maxValue)

include hside hx hy

theorem Anchored.step (h : t.Anchored origin) :
    (t.pose.position.toCell.advance t.pose.heading).Close side origin.toCell ∧
      (t.pose.position.advance t.pose.heading).toCell =
        t.pose.position.toCell.advance t.pose.heading := by
  have close := Cell.close_of_step h.stand t.pose.heading
  exact ⟨close, Position.toCell_advance_of_close hside hx hy close⟩

theorem close_of_execute_eq_error (h : t.Anchored origin) (failed : t.execute c = .error x) :
    ∀ p ∈ x.turtle.cells, p.toCell.Close side origin.toCell := by
  have fails := failsTo_of_perform (perform_of_execute_eq_error failed)
  have position := fails.position
  obtain ⟨-, saved, -⟩ := fails.account
  have kept := h.close
  rw [cells, List.forall_mem_cons] at kept ⊢
  rw [saved, position]
  -- Failing, a command changes the position by the step that it could not draw, or not at all.
  refine ⟨?_, kept.2⟩
  split
  · obtain ⟨close, same⟩ := h.step hside hx hy
    rw [same]
    exact close
  · exact kept.1

theorem close_halt (canvas : Canvas side) (heading : Direction) (commands : List Command) :
    ∀ p ∈ ((place canvas origin heading).halt commands).cells,
      p.toCell.Close side origin.toCell := by
  unfold halt
  cases hrun : (place canvas origin heading).run commands with
  | ok u => exact (anchored_of_run hrun).close
  | error x =>
    obtain ⟨before, c, after, u, -, reached, failed⟩ := exists_execute_of_run_eq_error hrun
    exact close_of_execute_eq_error hside hx hy (anchored_of_run reached) failed

end Bounded

end Turtle

namespace Render

/-- On a canvas whose side is a 32-bit number, and from a start that is not at the very end of such
numbers, no command computes a coordinate far from the start and from the canvas. So no addition
wraps around that a step makes, not even in the step that fails. A word that cannot be read fails
before there is a turtle. -/
theorem coordinates_close (config : Config) (i : Interpreter) (start : Nat → Position) (w : Word) :
    (∀ f, i.instructions w = .error f → word config i start w = pure (.error f)) ∧
    ∀ commands, i.instructions w = .ok commands →
      let side : Nat := max config.minSide (i.movements w)
      let origin : Position := start side
      let first := Turtle.place (.blank side) origin config.heading
      (word config i start w).value = picture side origin config.heading commands ∧
      ((side : Int) ≤ Int32.maxValue.toInt →
        origin.x ≠ .minValue ∧ origin.x ≠ .maxValue →
        origin.y ≠ .minValue ∧ origin.y ≠ .maxValue →
        ∀ k, (∀ p ∈ (first.halt (commands.take k)).cells, p.toCell.Close side origin.toCell) ∧
          ∀ t, first.run (commands.take k) = .ok t →
            (t.pose.position.toCell.advance t.pose.heading).Close side origin.toCell ∧
              (t.pose.position.advance t.pose.heading).toCell =
                t.pose.position.toCell.advance t.pose.heading) := by
  constructor
  · intro f unread
    rw [word, unread]
  intro commands reads side origin first
  refine ⟨value_word_of_reads config start (Interpreter.instructions_eq_ok_iff.mp reads), ?_⟩
  intro hside hx hy k
  constructor
  · exact Turtle.close_halt hside hx hy (.blank side) config.heading _
  · intro t hrun
    exact (Turtle.anchored_of_run hrun).step hside hx hy

/-- Within a branch, the second step leads off the canvas. The turtle is then in the row above, with
the pose saved that it began the branch in. -/
theorem coordinates_close_of_branch :
    let i := (CommandTable.ofEdits [.bindStandard]).interpreter
    let w := ['F', '[', 'F']
    let origin : Position := ⟨1, 1⟩
    let commands : List Command := [.drawLine, .pushBranch, .drawLine]
    let first := Turtle.place (.blank 3) origin .north
    let t := first.halt commands
    i.instructions w = .ok commands ∧ ((3 : Nat) : Int) ≤ Int32.maxValue.toInt ∧
      (origin.x ≠ .minValue ∧ origin.x ≠ .maxValue) ∧
      (origin.y ≠ .minValue ∧ origin.y ≠ .maxValue) ∧
      t.cells = [⟨0, 3⟩, ⟨1, 2⟩] ∧ (∀ p ∈ t.cells, p.toCell.Close 3 origin.toCell) ∧
      ∃ u, first.run [.drawLine, .pushBranch] = .ok u ∧
        (u.pose.position.advance u.pose.heading).toCell = ⟨0, 3⟩ := by
  intro i w origin commands first t
  have reads : i.instructions w = .ok commands := rfl
  obtain ⟨-, bounds⟩ := (coordinates_close {} i (fun _ => origin) w).2 commands reads
  have small : ((3 : Nat) : Int) ≤ Int32.maxValue.toInt := by decide
  have inside : origin.x ≠ .minValue ∧ origin.x ≠ .maxValue := by decide
  obtain ⟨-, stepping⟩ := bounds small inside inside 2
  exact ⟨reads, small, inside, inside, by decide, (bounds small inside inside 3).1, _, rfl,
    (stepping _ rfl).2⟩

end Render
end TurtleArt
