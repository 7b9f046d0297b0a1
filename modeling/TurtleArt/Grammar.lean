import TurtleArt.Symbol.Map

/-! Rewriting systems over single characters. A generation rewrites every symbol of a word at
once; a symbol without a rule stays. Scaffolding symbols steer the rewriting and are removed
from the last word only. -/

namespace TurtleArt

abbrev Word := List Char

structure Grammar where
  start : Word
  rules : SymbolMap Word := ∅
  scaffolding : SymbolSet := ∅
  deriving DecidableEq

namespace Grammar

def rewrite (g : Grammar) (c : Char) : Word :=
  (g.rules.get? c).getD [c]

def rewriteWord (g : Grammar) (w : Word) : Word :=
  w.flatMap g.rewrite

def grown (g : Grammar) (w : Word) (n : Nat) : Word :=
  Nat.repeat g.rewriteWord n w

def derive (g : Grammar) (n : Nat) : Word :=
  g.grown g.start n

def strip (g : Grammar) (w : Word) : Word :=
  w.filter fun c => !g.scaffolding.contains c

def expand (g : Grammar) (n : Nat) : Word :=
  g.strip (g.derive n)

/-- The first generation can be derived apart from the others. -/
theorem grown_succ (g : Grammar) (w : Word) (n : Nat) :
    g.grown w (n + 1) = g.grown (g.rewriteWord w) n := by
  induction n with
  | zero => rfl
  | succ n ih =>
    show g.rewriteWord (g.grown w (n + 1)) = _
    rw [ih]
    rfl

@[simp] theorem derive_zero (g : Grammar) : g.derive 0 = g.start := rfl

theorem derive_succ (g : Grammar) (n : Nat) : g.derive (n + 1) = g.rewriteWord (g.derive n) :=
  rfl

@[simp] theorem rewriteWord_append (g : Grammar) (u v : Word) :
    g.rewriteWord (u ++ v) = g.rewriteWord u ++ g.rewriteWord v :=
  List.flatMap_append

@[simp] theorem strip_append (g : Grammar) (u v : Word) :
    g.strip (u ++ v) = g.strip u ++ g.strip v :=
  List.filter_append ..

end Grammar
end TurtleArt
