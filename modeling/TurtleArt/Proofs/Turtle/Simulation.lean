import TurtleArt.Proofs.Canvas.Square
import TurtleArt.Proofs.Except
import TurtleArt.Proofs.Turtle.Walk
import TurtleArt.Turtle.Basic

/-! A turtle on a canvas follows the walk of a turtle in the plane, as far as addresses tell. A run
succeeds when the walk can be carried through and all its marks are addressed on the canvas; the
canvas then shows the last mark in every cell. -/

namespace TurtleArt

open Mark

variable {side : Nat}

/-- The mark in the cell that its address stands for. -/
def Mark.settle (m : Mark) : Mark :=
  { m with cell := m.cell.wrap.toCell }

namespace Canvas

def stamp (c : Canvas side) : Option Mark → Except Fault (Canvas side)
  | none => .ok c
  | some m => c.put m.glyph m.cell.wrap

variable {c d : Canvas side} {m? : Option Mark} {f : Fault}

theorem within_of_stamp (h : c.stamp m? = .ok d) :
    ∀ m ∈ m?.toList, m.cell.wrap.Within side := by
  cases m? with
  | none => simp
  | some m => simpa using within_of_put h

theorem exists_stamp (h : ∀ m ∈ m?.toList, m.cell.wrap.Within side) :
    ∃ d, c.stamp m? = .ok d := by
  cases m? with
  | none => exact ⟨c, rfl⟩
  | some m => exact exists_put m.glyph (h m (by simp))

theorem stamp_eq_error_iff :
    c.stamp m? = .error f ↔
      ∃ m, m? = some m ∧ ¬m.cell.wrap.Within side ∧ f = .outOfBounds m.cell.wrap side := by
  cases m? with
  | none => simp [stamp]
  | some m => simpa [stamp] using put_eq_error_iff

theorem at?_stamp (h : c.stamp m? = .ok d) (e : Cell) :
    d.at? e = (glyphAt (m?.toList.map settle) e).or (c.at? e) := by
  cases m? with
  | none =>
    obtain rfl := Except.ok.inj h
    rfl
  | some m =>
    rw [at?_put h, Option.toList_some, List.map_singleton, glyphAt_singleton]
    by_cases here : e = m.cell.wrap.toCell <;> simp [settle, here]

end Canvas

def Walker.draws (w : Walker) (commands : List Command) : List Mark :=
  (w.marks commands).map settle

namespace Turtle

variable {t u : Turtle side} {w v : Walker} {c : Command} {commands before : List Command}
  {f : Fault}

/-- The turtle stands and has saved its poses where the walker does, as far as addresses tell. -/
structure Follows (t : Turtle side) (w : Walker) : Prop where
  pose : t.pose = w.stance.wrap
  saved : t.saved = w.saved.map Stance.wrap

def walker (t : Turtle side) : Walker :=
  ⟨t.pose.stance, t.saved.map Pose.stance⟩

theorem follows_walker (t : Turtle side) : t.Follows t.walker where
  pose := t.pose.wrap_stance.symm
  saved := by simp [walker, Function.comp_def]

theorem Follows.length_saved (h : t.Follows w) : t.saved.length = w.saved.length := by
  rw [h.saved, List.length_map]

theorem follows_place (canvas : Canvas side) {e : Cell} {p : Position} (h : e.wrap = p)
    (d : Direction) : (place canvas p d).Follows (.place e d) :=
  h ▸ ⟨rfl, rfl⟩

theorem follows_place_toCell (canvas : Canvas side) (p : Position) (d : Direction) :
    (place canvas p d).Follows (.place p.toCell d) :=
  follows_place canvas p.wrap_toCell d

theorem execute_eq (h : t.Follows w) (c : Command) :
    (t.execute c).mapError Failure.cause =
      (t.canvas.stamp (w.mark? c)).bind fun canvas =>
        match w.next? c with
        | some v => .ok ⟨v.stance.wrap, v.saved.map Stance.wrap, t.executed + 1, canvas⟩
        | none => .error (.stackUnderflow t.executed) := by
  obtain ⟨pose, saved, executed, canvas⟩ := t
  obtain ⟨⟨e, heading⟩, stances⟩ := w
  obtain ⟨rfl, rfl⟩ := h
  cases c with
  | drawLeaf | drawLine =>
    simp only [execute, perform, forward, draw, Walker.mark?, Walker.next?, Canvas.stamp]
    simp only [Pose.advance, Stance.wrap, Stance.advance, Cell.wrap_advance]
    cases canvas.put heading.arrow (e.wrap.advance heading) <;> rfl
  | turnLeft | turnRight => rfl
  | pushBranch =>
    simp only [execute, perform, draw, Walker.mark?, Walker.next?, Canvas.stamp, Stance.wrap]
    cases canvas.put heading.arrow e.wrap <;> rfl
  | popBranch =>
    simp only [execute, perform, draw, Walker.mark?, Walker.next?, Canvas.stamp, Stance.wrap]
    cases canvas.put heading.arrow e.wrap with
    | error => rfl
    | ok canvas => cases stances <;> rfl

theorem execute_eq_ok_iff (h : t.Follows w) :
    t.execute c = .ok u ↔ t.canvas.stamp (w.mark? c) = .ok u.canvas ∧
      (∃ v, w.next? c = some v ∧ u.Follows v) ∧ u.executed = t.executed + 1 := by
  obtain ⟨pose, saved, executed, canvas⟩ := u
  rw [← Except.mapError_eq_ok_iff, execute_eq h]
  cases t.canvas.stamp (w.mark? c) with
  | error f => simp [Except.bind]
  | ok d =>
    cases hnext : w.next? c with
    | none => simp [Except.bind]
    | some v =>
      simp only [Except.bind, Except.ok.injEq, mk.injEq, Option.some.injEq, exists_eq_left']
      constructor
      · rintro ⟨rfl, rfl, rfl, rfl⟩
        exact ⟨rfl, ⟨rfl, rfl⟩, rfl⟩
      · rintro ⟨rfl, ⟨rfl, rfl⟩, rfl⟩
        exact ⟨rfl, rfl, rfl, rfl⟩

theorem execute_eq_error_iff (h : t.Follows w) :
    (t.execute c).mapError Failure.cause = .error f ↔
      (∃ m, w.mark? c = some m ∧ ¬m.cell.wrap.Within side ∧ f = .outOfBounds m.cell.wrap side) ∨
      (c = .popBranch ∧ w.saved = [] ∧ w.stance.cell.wrap.Within side ∧
        f = .stackUnderflow t.executed) := by
  rw [execute_eq h]
  cases hstamp : t.canvas.stamp (w.mark? c) with
  | error g =>
    have outside := Canvas.stamp_eq_error_iff.mp hstamp
    obtain ⟨m, hm, hcell, rfl⟩ := outside
    -- A pop leaves its mark where it stands: if that fails, the other failure is ruled out.
    have here : c = .popBranch → m.cell = w.stance.cell := by
      rintro rfl
      obtain rfl := Option.some.inj hm
      rfl
    simp only [Except.bind, Except.error.injEq, hm, Option.some.injEq]
    grind
  | ok d =>
    have inside := Canvas.within_of_stamp hstamp
    simp only [Except.bind]
    cases hnext : w.next? c with
    | some v =>
      have open_ : ¬(c = .popBranch ∧ w.saved = []) := by
        rw [← Walker.next?_eq_none_iff, hnext]
        simp
      simp only [reduceCtorEq, false_iff]
      grind
    | none =>
      obtain ⟨rfl, hsaved⟩ := Walker.next?_eq_none_iff.mp hnext
      have here := inside ⟨w.stance.cell, w.stance.heading.arrow⟩ (by simp [Walker.mark?])
      simp only [Except.error.injEq, true_and]
      grind

theorem run_cons (t : Turtle side) (c : Command) (commands : List Command) :
    t.run (c :: commands) = (t.execute c).bind (·.run commands) :=
  List.foldlM_cons

theorem run_append (t : Turtle side) (before after : List Command) :
    t.run (before ++ after) = (t.run before).bind (·.run after) :=
  List.foldlM_append

end Turtle

/-- The walk carries all commands through, to `v`, with every mark addressed on the canvas. -/
def Walker.Clears (side : Nat) (w : Walker) (commands : List Command) (v : Walker) : Prop :=
  w.walk? commands = some v ∧ ∀ m ∈ w.marks commands, m.cell.wrap.Within side

namespace Turtle

variable {t u : Turtle side} {w v : Walker} {c : Command} {commands : List Command} {f : Fault}

theorem clears_of_run (follows : t.Follows w) (h : t.run commands = .ok u) :
    ∃ v, w.Clears side commands v ∧ u.Follows v := by
  induction commands generalizing t w with
  | nil =>
    obtain rfl := Except.ok.inj h
    exact ⟨w, ⟨rfl, by simp⟩, follows⟩
  | cons c commands ih =>
    rw [run_cons] at h
    obtain ⟨s, hs, hrun⟩ := Except.bind_eq_ok_iff.mp h
    obtain ⟨hstamp, ⟨x, hnext, next⟩, -⟩ := (execute_eq_ok_iff follows).mp hs
    obtain ⟨v, ⟨hwalk, hmarks⟩, last⟩ := ih next hrun
    refine ⟨v, ⟨by rw [Walker.walk?_cons, hnext, Option.bind_some, hwalk], ?_⟩, last⟩
    rw [Walker.marks_cons hnext]
    intro m hm
    rcases List.mem_append.mp hm with here | later
    · exact Canvas.within_of_stamp hstamp m here
    · exact hmarks m later

theorem exists_run (follows : t.Follows w) (h : w.Clears side commands v) :
    ∃ u, t.run commands = .ok u := by
  induction commands generalizing t w with
  | nil => exact ⟨t, rfl⟩
  | cons c commands ih =>
    obtain ⟨hwalk, hmarks⟩ := h
    rw [Walker.walk?_cons] at hwalk
    obtain ⟨x, hnext, hrest⟩ := Option.bind_eq_some_iff.mp hwalk
    rw [Walker.marks_cons hnext] at hmarks
    obtain ⟨d, hd⟩ := Canvas.exists_stamp fun m hm => hmarks m (List.mem_append_left _ hm)
    let next : Turtle side := ⟨x.stance.wrap, x.saved.map Stance.wrap, t.executed + 1, d⟩
    have step : t.execute c = .ok next :=
      (execute_eq_ok_iff follows).mpr ⟨hd, ⟨x, hnext, rfl, rfl⟩, rfl⟩
    rw [run_cons, step]
    exact ih ⟨rfl, rfl⟩ ⟨hrest, fun m hm => hmarks m (List.mem_append_right _ hm)⟩

theorem executed_run (h : t.run commands = .ok u) :
    u.executed = t.executed + commands.length := by
  induction commands generalizing t with
  | nil =>
    obtain rfl := Except.ok.inj h
    rfl
  | cons c commands ih =>
    rw [run_cons] at h
    obtain ⟨s, hs, hrun⟩ := Except.bind_eq_ok_iff.mp h
    rw [ih hrun, ((execute_eq_ok_iff t.follows_walker).mp hs).2.2, List.length_cons]
    omega

theorem at?_run (follows : t.Follows w) (h : t.run commands = .ok u) (e : Cell) :
    u.canvas.at? e = (glyphAt (w.draws commands) e).or (t.canvas.at? e) := by
  induction commands generalizing t w with
  | nil =>
    obtain rfl := Except.ok.inj h
    rfl
  | cons c commands ih =>
    rw [run_cons] at h
    obtain ⟨s, hs, hrun⟩ := Except.bind_eq_ok_iff.mp h
    obtain ⟨hstamp, ⟨x, hnext, next⟩, -⟩ := (execute_eq_ok_iff follows).mp hs
    -- What the later commands leave in a cell hides the mark of the first.
    rw [ih next hrun, Canvas.at?_stamp hstamp, Walker.draws, Walker.draws,
      Walker.marks_cons hnext, List.map_append, glyphAt_append, Option.or_assoc]

theorem exists_execute_of_run_eq_error {x : Failure side} (h : t.run commands = .error x) :
    ∃ before c after u, commands = before ++ c :: after ∧ t.run before = .ok u ∧
      u.execute c = .error x := by
  induction commands generalizing t with
  | nil => cases h
  | cons c commands ih =>
    rw [run_cons] at h
    rcases Except.bind_eq_error_iff.mp h with first | ⟨s, hs, later⟩
    · exact ⟨[], c, commands, t, rfl, rfl, first⟩
    · obtain ⟨before, d, after, u, rfl, hrun, hfail⟩ := ih later
      refine ⟨c :: before, d, after, u, rfl, ?_, hfail⟩
      rw [run_cons, hs]
      exact hrun

theorem run_eq_error_iff :
    (t.run commands).mapError Failure.cause = .error f ↔
      ∃ before c after u, commands = before ++ c :: after ∧ t.run before = .ok u ∧
        (u.execute c).mapError Failure.cause = .error f := by
  constructor
  · intro h
    obtain ⟨x, hx, rfl⟩ := Except.mapError_eq_error_iff.mp h
    obtain ⟨before, c, after, u, rfl, hrun, hfail⟩ := exists_execute_of_run_eq_error hx
    exact ⟨before, c, after, u, rfl, hrun, Except.mapError_eq_error_iff.mpr ⟨x, hfail, rfl⟩⟩
  · rintro ⟨before, c, after, u, rfl, hrun, hfail⟩
    rw [run_append, hrun, Except.bind, run_cons, Except.mapError_bind, hfail]
    rfl

/-- How a run fails, told without the canvas: up to some command the walk is clear, and this one
leaves its mark beside the canvas or, with its mark on it, finds no pose to return to. -/
theorem run_eq_error_iff_walk (follows : t.Follows w) :
    (t.run commands).mapError Failure.cause = .error f ↔
      ∃ before c after v, commands = before ++ c :: after ∧ w.Clears side before v ∧
        ((∃ m, v.mark? c = some m ∧ ¬m.cell.wrap.Within side ∧
            f = .outOfBounds m.cell.wrap side) ∨
          (c = .popBranch ∧ v.saved = [] ∧ v.stance.cell.wrap.Within side ∧
            f = .stackUnderflow (t.executed + before.length))) := by
  rw [run_eq_error_iff]
  constructor
  · rintro ⟨before, c, after, u, rfl, hrun, hfail⟩
    obtain ⟨v, hclear, there⟩ := clears_of_run follows hrun
    refine ⟨before, c, after, v, rfl, hclear, ?_⟩
    rw [← executed_run hrun]
    exact (execute_eq_error_iff there).mp hfail
  · rintro ⟨before, c, after, v, rfl, hclear, hfail⟩
    obtain ⟨u, hrun⟩ := exists_run follows hclear
    obtain ⟨x, hclear', there⟩ := clears_of_run follows hrun
    obtain rfl : x = v := Option.some.inj (hclear'.1.symm.trans hclear.1)
    refine ⟨before, c, after, u, rfl, hrun, (execute_eq_error_iff there).mpr ?_⟩
    rw [executed_run hrun]
    exact hfail

/-- A mark beside the canvas is always noticed: no other failure comes before it. -/
theorem run_eq_outOfBounds_iff (follows : t.Follows w) :
    (∃ p n, (t.run commands).mapError Failure.cause = .error (.outOfBounds p n)) ↔
      ∃ m ∈ w.marks commands, ¬m.cell.wrap.Within side := by
  constructor
  · rintro ⟨p, n, h⟩
    obtain ⟨before, c, after, v, rfl, clears, hfail⟩ := (run_eq_error_iff_walk follows).mp h
    rcases hfail with ⟨m, mark, outside, -⟩ | ⟨-, -, -, hfault⟩
    · refine ⟨m, ?_, outside⟩
      rw [Walker.marks_append clears.1, Walker.marks, mark]
      simp
    · cases hfault
  · rintro ⟨m, hm, outside⟩
    cases h : (t.run commands).mapError Failure.cause with
    | ok u =>
      obtain ⟨v, clears, -⟩ := clears_of_run follows (Except.mapError_eq_ok_iff.mp h)
      exact absurd (clears.2 m hm) outside
    | error f =>
      obtain ⟨before, c, after, v, rfl, clears, hfail⟩ := (run_eq_error_iff_walk follows).mp h
      rcases hfail with ⟨m, -, -, rfl⟩ | ⟨rfl, hsaved, inside, -⟩
      · exact ⟨m.cell.wrap, side, rfl⟩
      · -- The walk ends at the pop that fails, and its marks were all on the canvas.
        have stuck : v.next? .popBranch = none := Walker.next?_eq_none_iff.mpr ⟨rfl, hsaved⟩
        rw [Walker.marks_append clears.1, Walker.marks, stuck, List.append_nil] at hm
        rcases List.mem_append.mp hm with earlier | here
        · exact absurd (clears.2 m earlier) outside
        · obtain rfl : m = ⟨v.stance.cell, v.stance.heading.arrow⟩ := by
            simpa [Walker.mark?] using here
          exact absurd inside outside

end Turtle
end TurtleArt
