import TurtleArt.Proofs.Turtle.Nesting
import TurtleArt.Proofs.Turtle.Simulation

/-! A branch is a detour. Commands that close only branches of their own leave the poses saved
before them untouched, however deep they nest. So the pose saved at the start of a branch is the one
that its end comes back to. -/

namespace TurtleArt

open Nesting

namespace Walker

variable {w v : Walker} {c : Command} {commands : List Command} {top kept : List Stance} {n : Nat}

theorem exists_saved_next (saved : w.saved = top ++ kept) (nest : c.nest? top.length = some n)
    (h : w.next? c = some v) : ∃ top', v.saved = top' ++ kept ∧ top'.length = n := by
  cases c with
  | pushBranch =>
    obtain rfl := Option.some.inj h
    obtain rfl := Option.some.inj nest
    exact ⟨w.stance :: top, congrArg (w.stance :: ·) saved, rfl⟩
  | popBranch =>
    obtain ⟨stance, rest, hsaved, rfl⟩ := next?_popBranch_eq_some h
    cases top with
    | nil => cases nest
    | cons latest top =>
      obtain rfl := Option.some.inj nest
      exact ⟨top, (List.cons.inj (hsaved.symm.trans saved)).2, rfl⟩
  | _ =>
    obtain rfl := Option.some.inj h
    obtain rfl := Option.some.inj nest
    exact ⟨top, saved, rfl⟩

theorem exists_saved_walk (saved : w.saved = top ++ kept)
    (level : level? some top.length commands = some n) (h : w.walk? commands = some v) :
    ∃ top', v.saved = top' ++ kept ∧ top'.length = n := by
  induction commands generalizing w top with
  | nil =>
    obtain rfl := Option.some.inj h
    exact ⟨top, saved, Option.some.inj level⟩
  | cons c commands ih =>
    rw [walk?_cons] at h
    rw [level?_cons] at level
    obtain ⟨u, hnext, hwalk⟩ := Option.bind_eq_some_iff.mp h
    obtain ⟨m, hnest, hlevel⟩ := Option.bind_eq_some_iff.mp level
    obtain ⟨top', hsaved, rfl⟩ := exists_saved_next saved hnest hnext
    exact ih hsaved hlevel hwalk

theorem exists_saved_of_prefix {before after : List Command}
    (balanced : Balanced some (before ++ after)) (h : w.walk? (.pushBranch :: before) = some v) :
    ∃ top, v.saved = top ++ w.stance :: w.saved ∧
      top.length + closed some before = opened some before := by
  let inner : Walker := ⟨w.stance.left, w.stance :: w.saved⟩
  have start : inner.saved = [] ++ w.stance :: w.saved := rfl
  have walk : inner.walk? before = some v := h
  have initial (u : List Command) (hu : u <+: before) : closed some u ≤ opened some u :=
    balanced.initial u (hu.trans (List.prefix_append before after))
  have whole := initial before List.prefix_rfl
  have level : level? some 0 before = some (opened some before - closed some before) := by
    rw [level?_eq_some_iff]
    simp only [Nat.zero_add]
    exact ⟨initial, Nat.sub_add_cancel whole⟩
  obtain ⟨top, hsaved, htop⟩ := exists_saved_walk start level walk
  exact ⟨top, hsaved, by rw [htop, Nat.sub_add_cancel whole]⟩

theorem walk?_branch (w : Walker) (balanced : Balanced some commands) :
    w.walk? (.pushBranch :: (commands ++ [.popBranch])) = some ⟨w.stance.right, w.saved⟩ := by
  let inner : Walker := ⟨w.stance.left, w.stance :: w.saved⟩
  have start : inner.saved = [] ++ w.stance :: w.saved := rfl
  have depth := map_walk?_saved inner commands
  rw [balanced.level?_eq, Option.map_eq_some_iff] at depth
  obtain ⟨v, hwalk, -⟩ := depth
  obtain ⟨top, hsaved, htop⟩ := exists_saved_walk start (balanced.level?_eq 0) hwalk
  obtain rfl := List.length_eq_zero_iff.mp htop
  have closing : v.next? .popBranch = some ⟨w.stance.right, w.saved⟩ := by
    rw [next?, show v.saved = w.stance :: w.saved from hsaved]
  calc w.walk? (.pushBranch :: (commands ++ [.popBranch]))
      = (inner.walk? commands).bind (·.walk? [.popBranch]) := walk?_append ..
    _ = v.next? .popBranch := by rw [hwalk, Option.bind_some, walk?_cons]; simp
    _ = _ := closing

end Walker

namespace Turtle

variable {side : Nat}

/-- A branch is a detour. It can be drawn if all its marks are on the canvas, and then the turtle is
back where the branch began, an eighth of a turn further right, with the poses saved that were saved
before. On the way they stay saved below the pose at which the branch began. -/
theorem run_branch_detour (t : Turtle side) (w : List Command) (balanced : Balanced some w) :
    let branch := .pushBranch :: (w ++ [.popBranch])
    ((∃ u, t.run branch = .ok u) ↔ ∀ m ∈ t.walker.marks branch, m.cell.wrap.Within side) ∧
    ∀ u, t.run branch = .ok u →
      u.pose.position = t.pose.position ∧ u.pose.heading = t.pose.heading.right ∧
      u.saved = t.saved ∧
      ∀ before after, w = before ++ after →
        ∃ v top, t.run (.pushBranch :: before) = .ok v ∧ v.saved = top ++ t.pose :: t.saved ∧
          top.length + closed some before = opened some before := by
  intro branch
  have walk : t.walker.walk? branch = some ⟨t.walker.stance.right, t.walker.saved⟩ :=
    Walker.walk?_branch t.walker balanced
  refine ⟨⟨?_, fun inside => exists_run t.follows_walker ⟨walk, inside⟩⟩, ?_⟩
  · rintro ⟨u, hrun⟩
    obtain ⟨v, clears, -⟩ := clears_of_run t.follows_walker hrun
    exact clears.2
  · intro u hrun
    obtain ⟨v, clears, ending⟩ := clears_of_run t.follows_walker hrun
    obtain rfl := Option.some.inj (walk.symm.trans clears.1)
    have pose : u.pose = t.pose.right := by
      rw [ending.pose, t.follows_walker.pose]
      rfl
    refine ⟨by rw [pose]; rfl, by rw [pose]; rfl, ending.saved.trans t.follows_walker.saved.symm, ?_⟩
    rintro before after rfl
    have parts : branch = (.pushBranch :: before) ++ (after ++ [.popBranch]) := by simp [branch]
    rw [parts, run_append] at hrun
    obtain ⟨v, hbefore, -⟩ := Except.bind_eq_ok_iff.mp hrun
    obtain ⟨x, clears, there⟩ := clears_of_run t.follows_walker hbefore
    obtain ⟨top, hsaved, htop⟩ := Walker.exists_saved_of_prefix balanced clears.1
    refine ⟨v, top.map Stance.wrap, hbefore, ?_, by rw [List.length_map, htop]⟩
    rw [there.saved, hsaved, List.map_append, List.map_cons, ← t.follows_walker.saved,
      ← t.follows_walker.pose]

/-- Two branches within the branch, the one in the other, and a pose that was saved before it. -/
theorem run_branch_detour_of_nested :
    let earlier : Pose := ⟨⟨0, 0⟩, .north⟩
    let t : Turtle 7 := { place (.blank 7) ⟨3, 3⟩ .east with saved := [earlier] }
    let before : List Command := [.drawLine, .pushBranch, .turnRight, .drawLine, .pushBranch]
    let after : List Command := [.drawLeaf, .popBranch, .popBranch, .drawLine]
    Balanced some (before ++ after) ∧
      ∃ u, t.run (.pushBranch :: (before ++ after ++ [.popBranch])) = .ok u ∧
        u.pose.position = ⟨3, 3⟩ ∧ u.pose.heading = .southEast ∧ u.saved = [earlier] ∧
        ∃ v top, t.run (.pushBranch :: before) = .ok v ∧
          v.saved = top ++ [⟨⟨3, 3⟩, .east⟩, earlier] ∧ top.length = 2 := by
  intro earlier t before after
  have balanced : Balanced some (before ++ after) := by decide
  obtain ⟨drawn, detour⟩ := run_branch_detour t (before ++ after) balanced
  obtain ⟨u, hrun⟩ := drawn.mpr (by decide)
  obtain ⟨position, heading, saved, inside⟩ := detour u hrun
  obtain ⟨v, top, hbefore, hsaved, htop⟩ := inside before after rfl
  exact ⟨balanced, u, hrun, position, heading, saved, v, top, hbefore, hsaved, htop⟩

end Turtle
end TurtleArt
