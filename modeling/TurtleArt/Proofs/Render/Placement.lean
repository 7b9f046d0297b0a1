import Mathlib.Order.MinMax
import TurtleArt.Proofs.Render.Picture
import TurtleArt.Proofs.Turtle.Placement

/-! The art does not tell where on its canvas a drawing was, nor how large the canvas was. What a
run draws is the view of the marks it would leave from the origin, and a canvas with at least as
much room on every side of the start holds whatever the other one held. -/

namespace TurtleArt

open Mark

namespace Turtle

variable {side side' : Nat} {p p' : Position} {d : Direction} {commands : List Command}
  {u : Turtle side} {u' : Turtle side'}

theorem draw_run_of_unmarked (h : (place (.blank side) p d).run commands = .ok u)
    (unmarked : (Walker.place ⟨0, 0⟩ d).marks commands = []) :
    u.canvas.draw = if side = 0 then "" else " \n" := by
  have depicts := depicts_lift h
  rw [Walker.marks_place, unmarked] at depicts
  exact depicts.draw_eq_of_nil

theorem draw_run_of_box {left right bottom top : Int}
    (h : (place (.blank side) p d).run commands = .ok u)
    (box : Box ((Walker.place ⟨0, 0⟩ d).marks commands) left right bottom top) :
    u.canvas.draw = String.ofList (Canvas.unlines
      (view ((Walker.place ⟨0, 0⟩ d).marks commands) left right bottom top)) := by
  have depicts := depicts_lift h
  have rows := unbroken_lift h
  rw [Walker.marks_place] at depicts rows
  rw [depicts.draw_eq_view rows (box.offset p.lift.x p.lift.y), view_offset]

theorem draw_run_eq (h : (place (.blank side) p d).run commands = .ok u)
    (h' : (place (.blank side') p' d).run commands = .ok u')
    (cells : (Walker.place ⟨0, 0⟩ d).marks commands = [] → (side = 0 ↔ side' = 0)) :
    u.canvas.draw = u'.canvas.draw := by
  by_cases unmarked : (Walker.place ⟨0, 0⟩ d).marks commands = []
  · rw [draw_run_of_unmarked h unmarked, draw_run_of_unmarked h' unmarked]
    simp only [cells unmarked]
  · obtain ⟨left, right, bottom, top, box⟩ := exists_box unmarked
    rw [draw_run_of_box h box, draw_run_of_box h' box]

end Turtle

/-- What lies on the one canvas, as seen from `e`, lies on the other one as seen from `e'`. -/
def Roomier (side : Nat) (e : Cell) (side' : Nat) (e' : Cell) : Prop :=
  ∀ c : Cell, (c.offset e.x e.y).Within side → (c.offset e'.x e'.y).Within side'

theorem StartPosition.roomier (start : StartPosition) {side side' : Nat} (larger : side ≤ side') :
    Roomier side (start.cell side) side' (start.cell side') := by
  intro c inside
  unfold Cell.Within Cell.offset at inside ⊢
  cases start <;> simp only [cell] at inside ⊢ <;> omega

section Roomier

variable {side side' : Nat} {p p' : Position} {d : Direction} {commands : List Command}
  {v : Walker} {f : Fault} (small : side ≤ StartPosition.farthest)
  (small' : side' ≤ StartPosition.farthest) (room : Roomier side p.toCell side' p'.toCell)

include small small' room

theorem Walker.Clears.exists_roomier (h : (place p.toCell d).Clears side commands v) :
    ∃ v₀ : Walker, v = v₀.offset p.toCell.x p.toCell.y ∧
      (place p'.toCell d).Clears side' commands (v₀.offset p'.toCell.x p'.toCell.y) := by
  obtain ⟨walk, addressed⟩ := h
  have inside := ((tame_place (p.tame_toCell small) d).within_iff small).mp addressed
  rw [place_eq_offset, walk?_offset] at walk
  obtain ⟨v₀, hv₀, rfl⟩ := Option.map_eq_some_iff.mp walk
  refine ⟨v₀, rfl, ?_, ?_⟩
  · rw [place_eq_offset, walk?_offset, hv₀, Option.map_some]
  · rw [marks_place, List.forall_mem_map] at inside ⊢
    intro m hm
    exact (room m.cell (inside m hm)).wrap (Nat.le_succ_of_le small')

theorem Turtle.run_eq_error_of_roomier (kept : ∀ q n, f ≠ .outOfBounds q n)
    (h : ((place (.blank side) p d).run commands).mapError Failure.cause = .error f) :
    ((place (.blank side') p' d).run commands).mapError Failure.cause = .error f := by
  rw [run_eq_error_iff_walk (follows_place_toCell ..)] at h ⊢
  obtain ⟨before, c, after, v, rfl, clears, hfail⟩ := h
  -- The pop fails in a cell of the one canvas, and so does the walk moved onto the other.
  have tame := (Walker.tame_place (p.tame_toCell small) d).walk clears
  obtain ⟨v₀, rfl, clears'⟩ := clears.exists_roomier small small' room
  rcases hfail with ⟨m, -, -, rfl⟩ | ⟨rfl, hsaved, addressed, rfl⟩
  · exact absurd rfl (kept m.cell.wrap side)
  · have saved : v₀.saved = [] := List.map_eq_nil_iff.mp hsaved
    have inside := tame.stance.within (by simp) addressed
    have inside' := (room v₀.stance.cell inside).wrap (Nat.le_succ_of_le small')
    exact ⟨before, .popBranch, after, _, rfl, clears',
      .inr ⟨rfl, List.map_eq_nil_iff.mpr saved, inside', rfl⟩⟩

end Roomier

namespace Render

variable {config config' : Config} {i i' : Interpreter} {start start' : Nat → Position} {w : Word}
  {art art' : String}

theorem exists_run_of_value (h : (word config i start w).value = .ok art) :
    ∃ commands u, i.Reads w commands ∧
      (Turtle.place (.blank (side config i w)) (start (side config i w)) config.heading).run
        commands = .ok u ∧ u.canvas.draw = art := by
  cases hread : i.instructions w with
  | error f =>
    rw [value_word_of_unread config start hread] at h
    cases h
  | ok commands =>
    have reads := Interpreter.instructions_eq_ok_iff.mp hread
    rw [value_word_of_reads config start reads, picture] at h
    split at h
    · rename_i u hrun
      exact ⟨commands, u, reads, hrun, Except.ok.inj h⟩
    · cases h

/-- Two drawings of a word that both succeed are the same text, whatever their canvases, their
starts and the symbols that count as movements. Only a canvas without a cell can be told from
others, and only if nothing is drawn. -/
theorem art_independent_of_canvas (config config' : Config) (i i' : Interpreter)
    (start start' : Nat → Position) (w : Word) (art art' : String)
    (agree : ∀ c ∈ w, i.command? c = i'.command? c) (heading : config.heading = config'.heading)
    (h : (word config i start w).value = .ok art)
    (h' : (word config' i' start' w).value = .ok art')
    (cells : (1 ≤ side config i w ∧ 1 ≤ side config' i' w) ∨
      ∃ commands, i.Reads w commands ∧
        (Walker.place (start (side config i w)).toCell config.heading).marks commands ≠ []) :
    art = art' := by
  obtain ⟨commands, u, reads, hrun, rfl⟩ := exists_run_of_value h
  obtain ⟨commands', u', reads', hrun', rfl⟩ := exists_run_of_value h'
  have same : i'.Reads w commands := by
    rw [Interpreter.Reads, ← reads]
    exact List.map_congr_left fun c hc => (agree c hc).symm
  obtain rfl := same.unique reads'
  rw [← heading] at hrun'
  apply Turtle.draw_run_eq hrun hrun'
  intro unmarked
  rcases cells with ⟨hside, hside'⟩ | ⟨drawing, reads'', marked⟩
  · omega
  · obtain rfl := reads.unique reads''
    rw [Walker.marks_place, unmarked] at marked
    exact absurd rfl marked

/-- A twig drawn from the center of a canvas of side five and, with the ends of branches flagged as
movements as well, from the top edge of one of side nine. -/
theorem art_independent_of_canvas_of_twig :
    let w := ['F', '[', '+', 'F', ']', '-', 'F']
    let i := (CommandTable.ofEdits [.bindStandard]).interpreter
    let i' := (CommandTable.ofEdits
      [.bindStandard, .setMovement '[' true, .setMovement 'F' false]).interpreter
    let config : Config := { minSide := 5, heading := .southEast }
    let config' : Config := { minSide := 9, heading := .southEast }
    let start (side : Nat) := StartPosition.central.origin side
    let start' (side : Nat) : Position := ⟨0, .ofNat (side - 1)⟩
    (∀ c ∈ w, i.command? c = i'.command? c) ∧ (1 ≤ side config i w ∧ 1 ≤ side config' i' w) ∧
      ∃ art, (word config i start w).value = .ok art ∧
        (word config' i' start' w).value = .ok art := by
  intro w i i' config config' start start'
  have agree : ∀ c ∈ w, i.command? c = i'.command? c := List.map_inj_left.mp rfl
  have cells : 1 ≤ side config i w ∧ 1 ≤ side config' i' w := by decide
  have drawn : (word config i start w).value = .ok " ↑\n←↘\n" := by decide +kernel
  obtain ⟨art', drawn'⟩ : ∃ art', (word config' i' start' w).value.toOption = some art' :=
    Option.isSome_iff_exists.mp (by decide +kernel)
  rw [Except.toOption_eq_some_iff] at drawn'
  have same := art_independent_of_canvas config config' i i' start start' w _ art' agree rfl drawn
    drawn' (.inl cells)
  exact ⟨agree, cells, _, drawn, same ▸ drawn'⟩

section Larger

variable (config config') (heading : config.heading = config'.heading)
  (small : side config i w ≤ StartPosition.farthest)
  (small' : side config' i w ≤ StartPosition.farthest)
  (room : Roomier (side config i w) (start (side config i w)).toCell (side config' i w)
    (start (side config' i w)).toCell)

include heading small small' room

theorem value_word_eq_ok_of_roomier
    (cells : side config i w = 0 ↔ side config' i w = 0)
    (h : (word config i start w).value = .ok art) : (word config' i start w).value = .ok art := by
  obtain ⟨commands, u, reads, hrun, rfl⟩ := exists_run_of_value h
  rw [heading] at hrun
  obtain ⟨v, clears, -⟩ :=
    Turtle.clears_of_run (Turtle.follows_place_toCell ..) hrun
  obtain ⟨v₀, -, clears'⟩ := clears.exists_roomier small small' room
  obtain ⟨u', hrun', drawn⟩ :=
    value_word_of_clears config' start reads rfl (Position.wrap_toCell _) clears'
  rw [drawn, Turtle.draw_run_eq hrun hrun' fun _ => cells]

theorem value_word_eq_error_of_roomier {f : Fault} (kept : ∀ q n, f ≠ .outOfBounds q n)
    (h : (word config i start w).value = .error f) :
    (word config' i start w).value = .error f := by
  cases hread : i.instructions w with
  | error g =>
    rw [value_word_of_unread _ start hread] at h ⊢
    exact h
  | ok commands =>
    have reads := Interpreter.instructions_eq_ok_iff.mp hread
    rw [value_word_of_reads _ start reads, picture_eq_error_iff] at h ⊢
    rw [← heading]
    exact Turtle.run_eq_error_of_roomier small small' room kept h

end Larger

/-- A larger canvas yields the same art, if there was any, and the same failure unless that was a
glyph beside the canvas. -/
theorem outcome_kept_by_larger_canvas (d : Definition) (n : Nat) (heading : Direction) (m m' : Nat)
    (larger : m ≤ m')
    (representable : side { minSide := m', heading } d.commands.interpreter (d.grammar.expand n) ≤
      StartPosition.farthest) :
    (∀ art, (definition { minSide := m, heading } d n).value = .ok art →
      1 ≤ side { minSide := m, heading } d.commands.interpreter (d.grammar.expand n) →
        (definition { minSide := m', heading } d n).value = .ok art) ∧
    ∀ f, (definition { minSide := m, heading } d n).value = .error f →
      (∀ q k, f ≠ .outOfBounds q k) →
        (definition { minSide := m', heading } d n).value = .error f := by
  have sides : side { minSide := m, heading } d.commands.interpreter (d.grammar.expand n) ≤
      side { minSide := m', heading } d.commands.interpreter (d.grammar.expand n) :=
    max_le_max_right _ larger
  have small := Nat.le_trans sides representable
  have room := d.start.roomier sides
  rw [← d.start.toCell_origin small, ← d.start.toCell_origin representable] at room
  simp only [value_definition]
  constructor
  · intro art h cell
    refine value_word_eq_ok_of_roomier { minSide := m, heading } { minSide := m', heading } rfl small
      representable ?_ (by omega) h
    exact room
  · intro f h kept
    refine value_word_eq_error_of_roomier { minSide := m, heading } { minSide := m', heading } rfl
      small representable ?_ kept h
    exact room

/-- A twig that is drawn on every canvas of side three or more, and a branch that is closed on none
of them. -/
theorem outcome_kept_by_larger_canvas_of_twig :
    let commands := CommandTable.ofEdits [.bindStandard]
    let twig : Definition :=
      ⟨"twig", { start := ['X'], rules := .ofList [('X', ['F', '[', '+', 'F', ']'])] }, commands,
        .middleBottom⟩
    let stray : Definition :=
      ⟨"stray", { start := ['X'], rules := .ofList [('X', ['F', ']'])] }, commands, .central⟩
    let outcome (d : Definition) (m : Nat) :=
      (definition { minSide := m, heading := .north } d 1).value
    (3 ≤ 8 ∧ side { minSide := 8 } commands.interpreter (twig.grammar.expand 1) ≤
      StartPosition.farthest) ∧
    (∃ art, outcome twig 3 = .ok art ∧ outcome twig 8 = .ok art) ∧
      outcome stray 3 = .error (.stackUnderflow 1) ∧
      outcome stray 8 = .error (.stackUnderflow 1) := by
  intro commands twig stray outcome
  have fits : side { minSide := 8 } commands.interpreter (twig.grammar.expand 1) ≤
      StartPosition.farthest := by decide
  have drawn : outcome twig 3 = .ok " ↑\n↙ \n" := by
    unfold outcome
    decide +kernel
  have failed : outcome stray 3 = .error (.stackUnderflow 1) := by
    unfold outcome
    decide +kernel
  have kept := outcome_kept_by_larger_canvas twig 1 .north 3 8 (by decide) fits
  have kept' := outcome_kept_by_larger_canvas stray 1 .north 3 8 (by decide) (by decide)
  exact ⟨⟨by decide, fits⟩, ⟨_, drawn, kept.1 _ drawn (by decide)⟩, failed,
    kept'.2 _ failed (by simp)⟩

end Render
end TurtleArt
