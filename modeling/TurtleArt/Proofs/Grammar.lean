import TurtleArt.Grammar

/-! Derivations piece by piece. What a word becomes is what its parts become, one after the other,
so the words that one symbol becomes follow a recursion along its rule. A derivation, which rewrites
whole words one generation after the other, can therefore be cut between any two symbols and between
any two generations, and it yields what a recursion that goes down one symbol at a time does. -/

namespace TurtleArt.Grammar

variable {g : Grammar} {c : Char}

theorem grown_append (g : Grammar) (u v : Word) (n : Nat) :
    g.grown (u ++ v) n = g.grown u n ++ g.grown v n := by
  induction n with
  | zero => rfl
  | succ n ih =>
    show g.rewriteWord (g.grown (u ++ v) n) = _
    rw [ih, rewriteWord_append]
    rfl

theorem grown_cons_cons (g : Grammar) (c d : Char) (w : Word) (n : Nat) :
    g.grown (c :: d :: w) n = g.grown [c] n ++ g.grown (d :: w) n :=
  g.grown_append [c] (d :: w) n

theorem grown_symbol_succ (g : Grammar) (c : Char) (n : Nat) :
    g.grown [c] (n + 1) = g.grown (g.rewrite c) n := by
  rw [grown_succ, rewriteWord, List.flatMap_singleton]

theorem grown_of_fixed (h : g.rewrite c = [c]) (n : Nat) : g.grown [c] n = [c] := by
  induction n with
  | zero => rfl
  | succ n ih => rw [grown_symbol_succ, h, ih]

theorem expand_eq_strip_grown (g : Grammar) (n : Nat) :
    g.expand n = g.strip (g.grown g.start n) := rfl

theorem expand_eq_grown (h : g.scaffolding = ∅) (n : Nat) : g.expand n = g.grown g.start n := by
  rw [expand_eq_strip_grown, strip, h]
  exact List.filter_eq_self.mpr fun c _ => rfl

def withStart (g : Grammar) (w : Word) : Grammar :=
  { g with start := w }

theorem derive_withStart (g : Grammar) (w : Word) (n : Nat) :
    (g.withStart w).derive n = g.grown w n := rfl

theorem grown_add (g : Grammar) (w : Word) (n m : Nat) :
    g.grown w (n + m) = g.grown (g.grown w m) n := by
  induction m generalizing w with
  | zero => rfl
  | succ m ih => rw [← Nat.add_assoc, grown_succ, ih, ← grown_succ]

theorem grown_eq_flatMap (g : Grammar) (w : Word) (n : Nat) :
    g.grown w n = w.flatMap fun c => g.grown [c] n := by
  induction w with
  | nil =>
    induction n with
    | zero => rfl
    | succ n ih => rw [grown_succ]; exact ih
  | cons c w ih => rw [← List.singleton_append, grown_append, ih]; rfl

/-- What a symbol becomes in `n` generations, found depth first: each symbol of its successor goes
through all generations that are left before the next symbol does. -/
def descend (g : Grammar) : Nat → Char → Word
  | 0, c => [c]
  | n + 1, c => (g.rewrite c).flatMap (g.descend n)

theorem grown_symbol_eq_descend (g : Grammar) (c : Char) (n : Nat) :
    g.grown [c] n = g.descend n c := by
  induction n generalizing c with
  | zero => rfl
  | succ n ih =>
    rw [grown_symbol_succ, grown_eq_flatMap, descend]
    simp only [ih]

theorem strip_flatMap (g : Grammar) (w : Word) (f : Char → Word) :
    g.strip (w.flatMap f) = w.flatMap fun c => g.strip (f c) :=
  List.filter_flatMap

/-- A derivation by whole generations follows its symbols independently of each other. It can be
cut between two symbols and between two generations, its first generation can be derived apart, and
each of its symbols becomes what a descent along the rules finds. Expanding keeps all of this, as
scaffolding is removed symbol by symbol. -/
theorem derive_eq_descend (g : Grammar) (u v : Word) (n m : Nat) :
    ((g.withStart (u ++ v)).derive n = (g.withStart u).derive n ++ (g.withStart v).derive n ∧
      (g.withStart u).derive (n + m) = (g.withStart ((g.withStart u).derive m)).derive n ∧
      (g.withStart u).derive (n + 1) =
        u.flatMap (fun c => (g.withStart (g.rewrite c)).derive n) ∧
      (g.withStart u).derive n = u.flatMap (g.descend n)) ∧
    (g.withStart (u ++ v)).expand n = (g.withStart u).expand n ++ (g.withStart v).expand n ∧
      (g.withStart u).expand (n + m) = (g.withStart ((g.withStart u).derive m)).expand n ∧
      (g.withStart u).expand (n + 1) =
        u.flatMap (fun c => (g.withStart (g.rewrite c)).expand n) ∧
      (g.withStart u).expand n = u.flatMap (fun c => g.strip (g.descend n c)) := by
  have concat : g.grown (u ++ v) n = g.grown u n ++ g.grown v n := g.grown_append u v n
  have add : g.grown u (n + m) = g.grown (g.grown u m) n := g.grown_add u n m
  have first : g.grown u (n + 1) = u.flatMap fun c => g.grown (g.rewrite c) n := by
    rw [grown_eq_flatMap]
    simp only [grown_symbol_succ]
  have depth : g.grown u n = u.flatMap (g.descend n) := by
    rw [grown_eq_flatMap]
    simp only [grown_symbol_eq_descend]
  have expanded (w : Word) (k : Nat) : (g.withStart w).expand k = g.strip (g.grown w k) := rfl
  simp only [expanded, derive_withStart]
  refine ⟨⟨concat, add, first, depth⟩, ?_, ?_, ?_, ?_⟩
  · rw [concat, strip_append]
  · rw [add]
  · rw [first, strip_flatMap]
  · rw [depth, strip_flatMap]

end TurtleArt.Grammar
