import TurtleArt.Proofs.Turtle.Walk

/-! How deep branches are nested in a sequence of symbols that stand for commands. Counted along the
sequence, the open branches are the poses that a turtle has saved, so a balanced sequence never
closes a branch that is not open, and leaves none open. -/

namespace TurtleArt

/-- The number of open branches after a command, if `n` are open before it. -/
def Command.nest? (n : Nat) : Command → Option Nat
  | .pushBranch => some (n + 1)
  | .popBranch =>
    match n with
    | 0 => none
    | n + 1 => some n
  | _ => some n

namespace Nesting

variable {α : Type} (command? : α → Option Command)

def opened (l : List α) : Nat :=
  l.countP fun a => command? a = some .pushBranch

def closed (l : List α) : Nat :=
  l.countP fun a => command? a = some .popBranch

/-- No part from the start on closes more branches than it opens, and the whole closes as many. -/
structure Balanced (l : List α) : Prop where
  initial : ∀ u, u <+: l → closed command? u ≤ opened command? u
  whole : closed command? l = opened command? l

def IsBracket (a : α) : Prop :=
  command? a = some .pushBranch ∨ command? a = some .popBranch

instance (a : α) : Decidable (IsBracket command? a) :=
  inferInstanceAs (Decidable (_ ∨ _))

def nest? (n : Nat) (a : α) : Option Nat :=
  match command? a with
  | some c => c.nest? n
  | none => some n

def level? (n : Nat) (l : List α) : Option Nat :=
  l.foldlM (nest? command?) n

theorem level?_cons (n : Nat) (a : α) (l : List α) :
    level? command? n (a :: l) = (nest? command? n a).bind (level? command? · l) :=
  List.foldlM_cons

theorem level?_append (n : Nat) (l l' : List α) :
    level? command? n (l ++ l') = (level? command? n l).bind (level? command? · l') :=
  List.foldlM_append

variable {command?} {a : α} {l : List α} {n m : Nat}

theorem nest?_of_not_isBracket (h : ¬IsBracket command? a) (n : Nat) :
    nest? command? n a = some n := by
  unfold nest?
  cases hc : command? a with
  | none => rfl
  | some c =>
    cases c with
    | pushBranch => exact absurd (.inl hc) h
    | popBranch => exact absurd (.inr hc) h
    | _ => rfl

theorem forall_prefix_cons {P : List α → Prop} :
    (∀ u, u <+: a :: l → P u) ↔ P [] ∧ ∀ u, u <+: l → P (a :: u) := by
  simp only [List.prefix_cons_iff, or_imp, forall_and, forall_eq, forall_exists_index, and_imp]
  refine and_congr_right fun _ => ⟨fun h u hu => h _ u rfl hu, ?_⟩
  rintro h _ u rfl hu
  exact h u hu

theorem opened_cons (a : α) (l : List α) :
    opened command? (a :: l) = opened command? [a] + opened command? l := by
  change List.countP _ ([a] ++ l) = _
  exact List.countP_append

theorem closed_cons (a : α) (l : List α) :
    closed command? (a :: l) = closed command? [a] + closed command? l := by
  change List.countP _ ([a] ++ l) = _
  exact List.countP_append

theorem nest?_eq_some_iff :
    nest? command? n a = some m ↔ m + closed command? [a] = n + opened command? [a] := by
  unfold nest? opened closed
  cases hc : command? a with
  | none => simp [hc, eq_comm]
  | some c =>
    cases c with
    | pushBranch => simp [hc, Command.nest?, eq_comm]
    | popBranch => cases n <;> simp [hc, Command.nest?, eq_comm]
    | _ => simp [hc, Command.nest?, eq_comm]

theorem level?_eq_some_iff :
    level? command? n l = some m ↔
      (∀ u, u <+: l → closed command? u ≤ n + opened command? u) ∧
        m + closed command? l = n + opened command? l := by
  induction l generalizing n with
  | nil =>
    simp only [List.prefix_nil, forall_eq]
    change some n = some m ↔ 0 ≤ n + 0 ∧ m + 0 = n + 0
    rw [Option.some.injEq]
    omega
  | cons a l ih =>
    rw [level?_cons, Option.bind_eq_some_iff, forall_prefix_cons, closed_cons, opened_cons]
    simp only [nest?_eq_some_iff, ih]
    constructor
    · rintro ⟨k, step, initial, whole⟩
      refine ⟨⟨Nat.zero_le _, ?_⟩, by omega⟩
      intro u hu
      have later := initial u hu
      rw [closed_cons, opened_cons]
      omega
    · rintro ⟨⟨-, initial⟩, whole⟩
      -- The part made up of `a` alone says that there is a branch for it to close.
      have first := initial [] List.nil_prefix
      refine ⟨n + opened command? [a] - closed command? [a], by omega, ?_, by omega⟩
      intro u hu
      have later := initial u hu
      rw [closed_cons, opened_cons] at later
      omega

theorem balanced_iff : Balanced command? l ↔ level? command? 0 l = some 0 := by
  rw [level?_eq_some_iff]
  simp only [Nat.zero_add]
  exact ⟨fun h => ⟨h.initial, h.whole⟩, fun h => ⟨h.1, h.2⟩⟩

instance : Decidable (Balanced command? l) :=
  decidable_of_iff _ balanced_iff.symm

theorem Balanced.level?_eq (h : Balanced command? l) (n : Nat) : level? command? n l = some n := by
  rw [level?_eq_some_iff, h.whole]
  exact ⟨fun u hu => Nat.le_add_left_of_le (h.initial u hu), rfl⟩

end Nesting

namespace Walker

open Nesting

theorem map_next?_saved (w : Walker) (c : Command) :
    (w.next? c).map (·.saved.length) = c.nest? w.saved.length := by
  obtain ⟨stance, saved⟩ := w
  cases c with
  | popBranch => cases saved <;> rfl
  | _ => rfl

theorem map_walk?_saved (w : Walker) (commands : List Command) :
    (w.walk? commands).map (·.saved.length) = level? some w.saved.length commands := by
  induction commands generalizing w with
  | nil => rfl
  | cons c commands ih =>
    rw [walk?_cons, level?_cons]
    have step : nest? some w.saved.length c = (w.next? c).map (·.saved.length) :=
      (map_next?_saved w c).symm
    rw [step]
    cases w.next? c with
    | none => rfl
    | some v => exact ih v

end Walker
end TurtleArt
