import TurtleArt.Proofs.Render.Outcome
import TurtleArt.Proofs.Turtle.Exactness
import TurtleArt.Proofs.Turtle.Reach

/-! Room for a drawing. Where every symbol that draws counts as a movement, the number of movements
bounds how far the turtle gets from its start, and a canvas with as many cells between the start and
each of its edges holds the drawing. -/

namespace TurtleArt

theorem Interpreter.Reads.countP_isDrawing_le {i : Interpreter} {w : Word}
    {commands : List Command} (h : i.Reads w commands)
    (counted : ∀ c ∈ w, ∀ command, i.command? c = some command → command.isDrawing = true →
      i.isMovement c = true) :
    commands.countP Command.isDrawing ≤ i.movements w := by
  induction w generalizing commands with
  | nil =>
    obtain rfl : commands = [] := by simpa using h.length_eq
    exact Nat.le_refl 0
  | cons c w ih =>
    obtain ⟨command, rest, rfl, hc, hrest⟩ := reads_cons_iff.mp h
    have tail : rest.countP Command.isDrawing ≤ i.movements w :=
      ih hrest fun d hd => counted d (List.mem_cons_of_mem c hd)
    have head : command.isDrawing = true → i.isMovement c = true :=
      counted c List.mem_cons_self command hc
    unfold Interpreter.movements at tail ⊢
    rw [List.countP_cons, List.countP_cons]
    split
    · rw [if_pos (head ‹_›)]
      exact Nat.succ_le_succ tail
    · exact Nat.le_add_right_of_le tail

namespace Render

open Interpreter

variable {config : Config} {i : Interpreter} {start : Nat → Position} {w : Word}

theorem ne_outOfBounds_of_within
    (inside : ∀ commands, i.Reads w commands →
      ∀ m ∈ (Walker.place (start (side config i w)).toCell config.heading).marks commands,
        m.cell.wrap.Within (side config i w)) (p : Position) (n : Nat) :
    (word config i start w).value ≠ .error (.outOfBounds p n) := by
  intro h
  cases hread : i.instructions w with
  | error f =>
    obtain ⟨u, c, v, -, -, -, rfl⟩ := instructions_eq_error_iff.mp hread
    rw [value_word_of_unread config start hread] at h
    cases h
  | ok commands =>
    have reads := instructions_eq_ok_iff.mp hread
    rw [value_word_of_reads config start reads, picture_eq_error_iff] at h
    obtain ⟨m, hm, outside⟩ :=
      (Turtle.run_eq_outOfBounds_iff (Turtle.follows_place_toCell ..)).mp ⟨p, n, h⟩
    exact outside (inside commands reads m hm)

theorem ne_outOfBounds_of_margin
    (counted : ∀ c ∈ w, ∀ command, i.command? c = some command → command.isDrawing = true →
      i.isMovement c = true)
    (small : side config i w ≤ StartPosition.farthest)
    (margin : ∀ e, (start (side config i w)).toCell.distance e ≤ i.movements w →
      e.Within (side config i w)) (p : Position) (n : Nat) :
    (word config i start w).value ≠ .error (.outOfBounds p n) := by
  apply ne_outOfBounds_of_within
  intro commands reads m hm
  have far := (Walker.range_place _ config.heading).marks hm
  rw [Nat.zero_add] at far
  have near := Nat.le_trans far (reads.countP_isDrawing_le counted)
  exact (margin m.cell near).wrap (Nat.le_succ_of_le small)

/-- The number of movements bounds how far the turtle and its saved poses get from the start, after
every part of a word: they have the addresses of cells that near, and on a canvas whose side is a
coordinate they are in these cells. A start with that many cells to each edge therefore keeps the
drawing on the canvas, and so does the center of a canvas that is wide enough. -/
theorem travel_le_movements (i : Interpreter) (w : Word)
    (counted : ∀ c ∈ w, ∀ command, i.command? c = some command → command.isDrawing = true →
      i.isMovement c = true) :
    (∀ k commands, i.Reads (w.take k) commands → ∀ (side : Nat) (canvas : Canvas side)
      (origin : Position) (heading : Direction) (t : Turtle side),
      (Turtle.place canvas origin heading).run commands = .ok t →
        let m := i.movements (w.take k)
        (∀ s ∈ t.pose :: t.saved, ∃ e, e.wrap = s.position ∧ origin.toCell.distance e ≤ m) ∧
          (side ≤ StartPosition.farthest →
            origin.toCell.distance t.pose.position.toCell ≤ m ∧
              ∀ s ∈ t.saved, origin.toCell.distance s.position.toCell ≤ m)) ∧
    (∀ (config : Config) (start : Nat → Position),
      let m := i.movements w
      let side := max config.minSide m
      let origin := (start side).toCell
      side ≤ StartPosition.farthest →
        (m ≤ origin.x ∧ origin.x + m < side) ∧ m ≤ origin.y ∧ origin.y + m < side →
          ∀ p n, (word config i start w).value ≠ .error (.outOfBounds p n)) ∧
    ∀ config : Config, 2 * i.movements w + 1 ≤ config.minSide →
      config.minSide ≤ StartPosition.farthest →
        ∀ p n, (word config i (fun side => StartPosition.central.origin side) w).value ≠
          .error (.outOfBounds p n) := by
  refine ⟨?_, ?_, ?_⟩
  · intro k commands reads side canvas origin heading t hrun m
    obtain ⟨v, clears, there⟩ :=
      Turtle.clears_of_run (Turtle.follows_place_toCell canvas origin heading) hrun
    have range := (Walker.range_place origin.toCell heading).walk clears.1
    rw [Nat.zero_add] at range
    -- Each step is a drawing command, and each of these is a movement.
    have drawn : commands.countP Command.isDrawing ≤ m :=
      reads.countP_isDrawing_le fun c hc => counted c (List.mem_of_mem_take hc)
    obtain ⟨here, saved⟩ := range.mono drawn
    rw [there.pose, there.saved, List.forall_mem_cons, List.forall_mem_map, List.forall_mem_map]
    refine ⟨⟨⟨_, rfl, here⟩, fun s hs => ⟨_, rfl, saved s hs⟩⟩, fun small => ?_⟩
    obtain ⟨settled, settled'⟩ := Walker.settled_of_clears small clears
    exact ⟨settled.symm ▸ here, fun s hs => (settled' s hs).symm ▸ saved s hs⟩
  · intro config start m side origin small margin
    apply ne_outOfBounds_of_margin counted small
    intro e near
    have bounds := Cell.distance_le_iff.mp near
    change ((m ≤ origin.x ∧ origin.x + m < side) ∧ m ≤ origin.y ∧ origin.y + m < side) at margin
    change (origin.x - m ≤ e.x ∧ e.x ≤ origin.x + m) ∧ origin.y - m ≤ e.y ∧ e.y ≤ origin.y + m
      at bounds
    change (0 ≤ e.x ∧ e.x < side) ∧ 0 ≤ e.y ∧ e.y < side
    omega
  · intro config wide representable
    have hside : side config i w = config.minSide := by
      unfold side
      omega
    have small : side config i w ≤ StartPosition.farthest := hside ▸ representable
    apply ne_outOfBounds_of_margin counted small
    intro e near
    rw [StartPosition.toCell_origin _ small] at near
    rw [hside] at near ⊢
    have bounds := Cell.distance_le_iff.mp near
    simp only [StartPosition.cell] at bounds
    unfold Cell.Within
    omega

/-- Two movements with a branch between them, from the center of the smallest canvas that is wide
enough. Before the branch is closed the turtle is two moves away, and the pose it saved is one. -/
theorem travel_le_movements_of_branch :
    let i := (CommandTable.ofEdits [.bindStandard]).interpreter
    let w := ['F', '[', '+', 'F', ']']
    let center : Position := ⟨2, 2⟩
    let commands : List Command := [.drawLine, .pushBranch, .turnLeft, .drawLine]
    (∀ c ∈ w, ∀ command, i.command? c = some command → command.isDrawing = true →
      i.isMovement c = true) ∧
    i.Reads (w.take 4) commands ∧
    (∃ t, (Turtle.place (.blank 5) center .north).run commands = .ok t ∧
      t.saved = [⟨⟨2, 3⟩, .north⟩] ∧ center.toCell.distance t.pose.position.toCell ≤ 2 ∧
        ∀ s ∈ t.saved, center.toCell.distance s.position.toCell ≤ 2) ∧
    (∀ p n, (word { minSide := 5 } i (fun _ => center) w).value ≠ .error (.outOfBounds p n)) ∧
    ∀ p n, (word { minSide := 5 } i (fun side => StartPosition.central.origin side) w).value ≠
      .error (.outOfBounds p n) := by
  intro i w center commands
  have counted : ∀ c ∈ w, ∀ command, i.command? c = some command → command.isDrawing = true →
      i.isMovement c = true := by
    intro c hc command hcommand drawing
    simp only [w, List.mem_cons, List.not_mem_nil, or_false] at hc
    rcases hc with rfl | rfl | rfl | rfl | rfl
    all_goals
      obtain rfl := Option.some.inj hcommand
      first | rfl | cases drawing
  obtain ⟨near, margin, centered⟩ := travel_le_movements i w counted
  have reads : i.Reads (w.take 4) commands := rfl
  have branched : ((Turtle.place (.blank 5) center .north).run commands).toOption.map
      Turtle.saved = some [⟨⟨2, 3⟩, .north⟩] := by decide
  obtain ⟨t, ran, saved⟩ := Option.map_eq_some_iff.mp branched
  have hrun := Except.toOption_eq_some_iff.mp ran
  have bounded := (near 4 commands reads 5 _ center .north t hrun).2 (by decide)
  refine ⟨counted, reads, ⟨t, hrun, saved, bounded⟩, ?_, ?_⟩
  · exact margin { minSide := 5 } (fun _ => center) (by decide) (by decide)
  · exact centered { minSide := 5 } (by decide) (by decide)

end Render
end TurtleArt
