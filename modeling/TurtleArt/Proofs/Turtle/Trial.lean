import TurtleArt.Proofs.Turtle.Simulation
import TurtleArt.Turtle.Action

/-! A turtle driven by hand, through actions that fail. An action that fails leaves the heading, the
saved poses and the number of commands carried out as they were. So these can be told from the
actions that succeeded, whatever failed in between. -/

namespace TurtleArt.Turtle

variable {side : Nat} {t u : Turtle side} {a : Action} {c : Command} {f : Fault}
  {x : Failure side}

namespace Action

def steps : Action → Bool
  | .forward | .execute .drawLeaf | .execute .drawLine => true
  | _ => false

def draws : Action → Bool
  | .draw | .execute .pushBranch | .execute .popBranch => true
  | _ => false

def pushes : Action → Bool
  | .push | .execute .pushBranch => true
  | _ => false

def pops : Action → Bool
  | .pop | .execute .popBranch => true
  | _ => false

def executes : Action → Bool
  | .execute _ => true
  | _ => false

theorem steps_eq_false (a : Action) (draws : a.draws = true) : a.steps = false := by
  cases a with
  | execute c => cases c <;> first | rfl | cases draws
  | forward => cases draws
  | _ => rfl

end Action

theorem draw_eq_error_iff : t.draw = .error x ↔
    ¬t.pose.position.Within side ∧ x = ⟨t, .outOfBounds t.pose.position side⟩ := by
  unfold draw
  cases hput : t.canvas.put t.pose.heading.arrow t.pose.position with
  | ok canvas =>
    have inside := Canvas.within_of_put hput
    simp [inside]
  | error g =>
    obtain ⟨outside, rfl⟩ := Canvas.put_eq_error_iff.mp hput
    simp [outside, eq_comm]

theorem draw_eq_ok_iff : t.draw = .ok u ↔
    ∃ canvas, t.canvas.put t.pose.heading.arrow t.pose.position = .ok canvas ∧
      u = { t with canvas } := by
  unfold draw
  cases t.canvas.put t.pose.heading.arrow t.pose.position <;> simp [eq_comm]

theorem pop_eq_error_iff :
    t.pop = .error x ↔ t.saved = [] ∧ x = ⟨t, .stackUnderflow t.executed⟩ := by
  unfold pop
  cases t.saved <;> simp [eq_comm]

theorem pop_eq_ok_iff : t.pop = .ok u ↔
    ∃ pose saved, t.saved = pose :: saved ∧ u = { t with pose, saved } := by
  unfold pop
  cases t.saved with
  | nil => simp
  | cons pose saved =>
    simp only [Except.ok.injEq, List.cons.injEq]
    grind

inductive FailsTo (t : Turtle side) : Action → Fault → Turtle side → Prop
  | step {a : Action} (steps : a.steps = true) (outside : ¬t.pose.advance.position.Within side) :
      FailsTo t a (.outOfBounds t.pose.advance.position side) { t with pose := t.pose.advance }
  | draw {a : Action} (draws : a.draws = true) (outside : ¬t.pose.position.Within side) :
      FailsTo t a (.outOfBounds t.pose.position side) t
  | pop (empty : t.saved = []) : FailsTo t .pop (.stackUnderflow t.executed) t
  | popBranch {canvas : Canvas side} (empty : t.saved = [])
      (drawn : t.canvas.put t.pose.heading.arrow t.pose.position = .ok canvas) :
      FailsTo t (.execute .popBranch) (.stackUnderflow t.executed) { t with canvas }

theorem perform_of_execute_eq_error (h : t.execute c = .error x) : t.perform c = .error x := by
  rcases Except.bind_eq_error_iff.mp h with performing | ⟨v, -, counting⟩
  · exact performing
  · cases counting

theorem failsTo_of_perform (h : t.perform c = .error x) :
    t.FailsTo (.execute c) x.cause x.turtle := by
  cases c with
  | drawLeaf | drawLine =>
    obtain ⟨outside, rfl⟩ := draw_eq_error_iff.mp h
    exact .step rfl outside
  | turnLeft | turnRight => cases h
  | pushBranch =>
    rcases Except.bind_eq_error_iff.mp h with drawing | ⟨v, -, pushing⟩
    · obtain ⟨outside, rfl⟩ := draw_eq_error_iff.mp drawing
      exact .draw rfl outside
    · cases pushing
  | popBranch =>
    rcases Except.bind_eq_error_iff.mp h with drawing | ⟨v, drawn, rest⟩
    · obtain ⟨outside, rfl⟩ := draw_eq_error_iff.mp drawing
      exact .draw rfl outside
    · obtain ⟨canvas, hput, rfl⟩ := draw_eq_ok_iff.mp drawn
      rcases Except.bind_eq_error_iff.mp rest with popping | ⟨w, -, turning⟩
      · obtain ⟨empty, rfl⟩ := pop_eq_error_iff.mp popping
        exact .popBranch empty hput
      · cases turning

theorem failsTo_of_act (h : t.act a = .error x) : t.FailsTo a x.cause x.turtle := by
  cases a with
  | execute c => exact failsTo_of_perform (perform_of_execute_eq_error h)
  | draw =>
    obtain ⟨outside, rfl⟩ := draw_eq_error_iff.mp h
    exact .draw rfl outside
  | forward =>
    obtain ⟨outside, rfl⟩ := draw_eq_error_iff.mp h
    exact .step rfl outside
  | left | right | push => cases h
  | pop =>
    obtain ⟨empty, rfl⟩ := pop_eq_error_iff.mp h
    exact .pop empty

theorem account_of_act (h : t.act a = .ok u) :
    (u.depth + [a].countP Action.pops = t.depth + [a].countP Action.pushes) ∧
      u.executed = t.executed + [a].countP Action.executes := by
  cases a with
  | execute c =>
    obtain ⟨-, ⟨v, hnext, there⟩, counted⟩ := (execute_eq_ok_iff t.follows_walker).mp h
    have walk : t.walker.walk? [c] = some v := by
      rw [Walker.walk?_cons, hnext]
      rfl
    -- A command that is carried through changes the depth as it does on a walk.
    have before := t.follows_walker.length_saved
    have after := there.length_saved
    have depth := Walker.length_saved walk
    rw [← before, ← after] at depth
    refine ⟨?_, counted⟩
    cases c <;> exact depth
  | draw | forward =>
    obtain ⟨canvas, -, rfl⟩ := draw_eq_ok_iff.mp h
    exact ⟨rfl, rfl⟩
  | left | right | push =>
    obtain rfl := Except.ok.inj h
    exact ⟨rfl, rfl⟩
  | pop =>
    obtain ⟨pose, saved, hsaved, rfl⟩ := pop_eq_ok_iff.mp h
    refine ⟨?_, rfl⟩
    rw [depth, depth, hsaved]
    rfl

def tried (t : Turtle side) (actions : List Action) : Turtle side :=
  actions.foldl (fun t a => (t.attempt a).1) t

def successes (t : Turtle side) (actions : List Action) : List Action :=
  ((actions.zip (t.trial actions)).filter fun (_, _, fault) => fault.isNone).map Prod.fst

theorem tried_cons (t : Turtle side) (a : Action) (actions : List Action) :
    t.tried (a :: actions) = (t.attempt a).1.tried actions := rfl

theorem attempt_of_act_eq_ok (h : t.act a = .ok u) : t.attempt a = (u, none) := by
  rw [attempt, h]

theorem attempt_of_act_eq_error (h : t.act a = .error x) :
    t.attempt a = (x.turtle, some x.cause) := by
  rw [attempt, h]

theorem exists_attempt_eq (h : (t.attempt a).2 = some f) : ∃ u, t.attempt a = (u, some f) :=
  ⟨(t.attempt a).1, Prod.ext rfl h⟩

theorem failsTo_of_attempt (h : t.attempt a = (u, some f)) : t.FailsTo a f u := by
  cases hact : t.act a with
  | ok v => cases h.symm.trans (attempt_of_act_eq_ok hact)
  | error x =>
    cases h.symm.trans (attempt_of_act_eq_error hact)
    exact failsTo_of_act hact

theorem successes_cons_of_ok (h : t.act a = .ok u) (actions : List Action) :
    t.successes (a :: actions) = a :: u.successes actions := by
  rw [successes, trial, attempt_of_act_eq_ok h]
  rfl

theorem successes_cons_of_error (h : t.act a = .error x) (actions : List Action) :
    t.successes (a :: actions) = x.turtle.successes actions := by
  rw [successes, trial, attempt_of_act_eq_error h]
  rfl

theorem FailsTo.account (h : t.FailsTo a f u) :
    u.pose.heading = t.pose.heading ∧ u.saved = t.saved ∧ u.executed = t.executed := by
  cases h <;> exact ⟨rfl, rfl, rfl⟩

theorem FailsTo.position (h : t.FailsTo a f u) :
    u.pose.position =
      if a.steps then t.pose.position.advance t.pose.heading else t.pose.position := by
  cases h with
  | step steps _ => rw [if_pos steps]; rfl
  | draw draws _ => rw [a.steps_eq_false draws]; rfl
  | pop | popBranch => rfl

theorem account_tried (t : Turtle side) (actions : List Action) :
    ((t.tried actions).depth + (t.successes actions).countP Action.pops =
        t.depth + (t.successes actions).countP Action.pushes) ∧
      (t.tried actions).executed = t.executed + (t.successes actions).countP Action.executes := by
  induction actions generalizing t with
  | nil => exact ⟨rfl, rfl⟩
  | cons a actions ih =>
    rw [tried_cons]
    cases hact : t.act a with
    | ok u =>
      obtain ⟨depth, executed⟩ := account_of_act hact
      obtain ⟨later, counted⟩ := ih u
      have first (p : Action → Bool) : (a :: u.successes actions).countP p =
          [a].countP p + (u.successes actions).countP p := by
        rw [← List.countP_append, List.singleton_append]
      rw [attempt_of_act_eq_ok hact, successes_cons_of_ok hact, first, first, first]
      dsimp only
      omega
    | error x =>
      obtain ⟨-, saved, executed⟩ := (failsTo_of_act hact).account
      have depth : x.turtle.depth = t.depth := congrArg List.length saved
      rw [attempt_of_act_eq_error hact, successes_cons_of_error hact, ← depth, ← executed]
      exact ih x.turtle

theorem getElem?_trial (t : Turtle side) (before : List Action) (a : Action)
    (later : List Action) :
    (t.trial (before ++ a :: later))[before.length]? = some ((t.tried before).attempt a) := by
  induction before generalizing t with
  | nil => rfl
  | cons b before ih => exact ih (t.attempt b).1

/-- A turtle driven through any actions. At every point it has a saved pose for each push that
succeeded and was not undone by a pop that did. An action that fails there keeps the account: what
it changes is the position, if it steps ahead, or the canvas, if it closes a branch that is not
open. -/
theorem trial_accounts (canvas : Canvas side) (p : Position) (d : Direction)
    (before : List Action) (a : Action) (later : List Action) :
    let start := place canvas p d
    let t := start.tried before
    let done := start.successes before
    (t.depth : Int) = done.countP Action.pushes - done.countP Action.pops ∧
      (start.trial (before ++ a :: later))[before.length]? = some (t.attempt a) ∧
      ∀ u f, t.attempt a = (u, some f) →
        (∀ index, f = .stackUnderflow index → index = done.countP Action.executes) ∧
        u.pose.heading = t.pose.heading ∧ u.saved = t.saved ∧ u.executed = t.executed ∧
        u.pose.position =
          (if a.steps then t.pose.position.advance t.pose.heading else t.pose.position) ∧
        ((a = .execute .popBranch ∧ ∃ index, f = .stackUnderflow index) →
          ∀ q, u.canvas.get? q =
            if q = t.pose.position then some t.pose.heading.arrow else t.canvas.get? q) ∧
        (¬(a = .execute .popBranch ∧ ∃ index, f = .stackUnderflow index) →
          u.canvas = t.canvas) := by
  intro start t done
  obtain ⟨depth, counted⟩ := account_tried start before
  change t.depth + done.countP Action.pops = 0 + done.countP Action.pushes at depth
  change t.executed = 0 + done.countP Action.executes at counted
  refine ⟨by omega, getElem?_trial start before a later, ?_⟩
  intro u f failed
  have fails := failsTo_of_attempt failed
  obtain ⟨heading, saved, executed⟩ := fails.account
  refine ⟨?_, heading, saved, executed, fails.position, ?_, ?_⟩
  · rintro index rfl
    cases fails <;> omega
  · rintro ⟨rfl, index, rfl⟩
    cases fails with
    | popBranch empty drawn => exact Canvas.get?_put drawn
  · intro other
    cases fails with
    | popBranch empty drawn => exact absurd ⟨rfl, _, rfl⟩ other
    | _ => rfl

/-- A step off the canvas fails between a push and its pop, and moves the turtle. A branch is then
closed that is not open, after two commands were carried out, and its arrow is drawn. -/
theorem trial_accounts_of_stray_pop :
    let start : Turtle 2 := place (.blank 2) ⟨0, 0⟩ .north
    let pushed := start.tried [.execute .drawLine, .push]
    let actions : List Action := [.execute .drawLine, .push, .forward, .pop, .execute .turnLeft]
    let t := start.tried actions
    (∃ u, pushed.attempt .forward = (u, some (.outOfBounds ⟨0, 2⟩ 2)) ∧
      u.pose.position = ⟨0, 2⟩ ∧ u.saved = pushed.saved ∧ u.canvas = pushed.canvas) ∧
    (t.depth : Int) = (start.successes actions).countP Action.pushes -
      (start.successes actions).countP Action.pops ∧
    ∃ u, t.attempt (.execute .popBranch) = (u, some (.stackUnderflow 2)) ∧
      2 = (start.successes actions).countP Action.executes ∧
      u.pose.heading = .west ∧ u.pose.position = ⟨0, 1⟩ ∧ u.canvas.get? ⟨0, 1⟩ = some '←' ∧
      u.canvas.get? ⟨0, 0⟩ = t.canvas.get? ⟨0, 0⟩ := by
  intro start pushed actions t
  obtain ⟨-, -, stepping⟩ := trial_accounts (.blank 2) ⟨0, 0⟩ .north [.execute .drawLine, .push]
    .forward []
  obtain ⟨depth, -, popping⟩ := trial_accounts (.blank 2) ⟨0, 0⟩ .north actions
    (.execute .popBranch) []
  obtain ⟨u, stepped⟩ : ∃ u, pushed.attempt .forward = (u, some (.outOfBounds ⟨0, 2⟩ 2)) :=
    exists_attempt_eq (by decide)
  obtain ⟨v, popped⟩ : ∃ v, t.attempt (.execute .popBranch) = (v, some (.stackUnderflow 2)) :=
    exists_attempt_eq (by decide)
  obtain ⟨-, -, saved, -, position, -, canvas⟩ := stepping _ _ stepped
  obtain ⟨counted, heading, -, -, position', drawn, -⟩ := popping _ _ popped
  have written := drawn ⟨rfl, 2, rfl⟩
  exact ⟨⟨u, stepped, position.trans (by decide), saved, canvas (by simp)⟩, depth,
    ⟨v, popped, counted 2 rfl, heading.trans (by decide), position'.trans (by decide),
      (written ⟨0, 1⟩).trans (by decide), (written ⟨0, 0⟩).trans (by decide)⟩⟩

end TurtleArt.Turtle
