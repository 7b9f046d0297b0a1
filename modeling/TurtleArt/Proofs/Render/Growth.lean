import Mathlib.Data.Matrix.Mul
import TurtleArt.Preset
import TurtleArt.Proofs.Render.Renaming
import TurtleArt.Proofs.Symbol.Canonical

/-! How many symbols of each kind a derivation yields, told without deriving a word. A generation
has a symbol as often as the successors of the generation before have it, so its counts are the
counts of the start, taken through one matrix once for each generation. The movements among them
give the side of the canvas. -/

namespace TurtleArt

open scoped Matrix

namespace Grammar

variable {g : Grammar} {w : Word} {c s : Char}

def alphabet (g : Grammar) : Finset Char :=
  (g.start ++ g.rules.toList.flatMap Prod.snd).toFinset

theorem mem_alphabet_of_mem_start (hc : c ∈ g.start) : c ∈ g.alphabet :=
  List.mem_toFinset.mpr (List.mem_append_left _ hc)

theorem mem_alphabet_of_mem_rewrite (hs : s ∈ g.alphabet) (hc : c ∈ g.rewrite s) :
    c ∈ g.alphabet := by
  rw [rewrite] at hc
  cases hrule : g.rules.get? s with
  | none =>
    rw [hrule, Option.getD_none, List.mem_singleton] at hc
    exact hc ▸ hs
  | some u =>
    rw [hrule, Option.getD_some] at hc
    have entry : (s, u) ∈ g.rules.toList := SymbolMap.mem_toList_iff.mpr hrule
    exact List.mem_toFinset.mpr (List.mem_append_right _ (List.mem_flatMap.mpr ⟨_, entry, hc⟩))

theorem Occurs.mem_alphabet (h : g.Occurs c) : c ∈ g.alphabet :=
  h.induction (fun _ => mem_alphabet_of_mem_start) fun _ hs _ => mem_alphabet_of_mem_rewrite hs

def growth (g : Grammar) : Matrix g.alphabet g.alphabet Nat :=
  fun s c => (g.rewrite s).count c.val

def census (g : Grammar) (w : Word) : g.alphabet → Nat :=
  fun c => w.count c.val

def tally (g : Grammar) (n : Nat) (c : Char) : Nat :=
  if h : c ∈ g.alphabet then (g.census g.start ᵥ* g.growth ^ n) ⟨c, h⟩ else 0

theorem count_rewriteWord (g : Grammar) (w : Word) (c : Char) :
    (g.rewriteWord w).count c = ∑ s ∈ w.toFinset, w.count s * (g.rewrite s).count c := by
  rw [rewriteWord, List.count_flatMap, Finset.sum_list_map_count]
  rfl

theorem census_rewriteWord (inside : ∀ s ∈ w, s ∈ g.alphabet) :
    g.census (g.rewriteWord w) = g.census w ᵥ* g.growth := by
  funext c
  -- Symbols of the alphabet that the word does not have contribute nothing.
  have absent (s : Char) (_ : s ∈ g.alphabet) (hs : s ∉ w.toFinset) :
      w.count s * (g.rewrite s).count c.val = 0 := by
    rw [List.count_eq_zero_of_not_mem (mt List.mem_toFinset.mpr hs), Nat.zero_mul]
  have subset : w.toFinset ⊆ g.alphabet := fun s hs => inside s (List.mem_toFinset.mp hs)
  calc (g.rewriteWord w).count c.val
      = ∑ s ∈ w.toFinset, w.count s * (g.rewrite s).count c.val := count_rewriteWord g w c
    _ = ∑ s ∈ g.alphabet, w.count s * (g.rewrite s).count c.val :=
        Finset.sum_subset subset absent
    _ = ∑ s : g.alphabet, w.count s.val * (g.rewrite s).count c.val :=
        (Finset.sum_coe_sort g.alphabet fun s => w.count s * (g.rewrite s).count c.val).symm

theorem census_derive (g : Grammar) (n : Nat) :
    g.census (g.derive n) = g.census g.start ᵥ* g.growth ^ n := by
  induction n with
  | zero => rw [derive_zero, pow_zero, Matrix.vecMul_one]
  | succ n ih =>
    have inside : ∀ s ∈ g.derive n, s ∈ g.alphabet := fun s hs => Occurs.mem_alphabet ⟨n, hs⟩
    rw [derive_succ, census_rewriteWord inside, ih, Matrix.vecMul_vecMul, pow_succ]

theorem count_derive (g : Grammar) (n : Nat) (c : Char) : (g.derive n).count c = g.tally n c := by
  rw [tally]
  split
  · rw [← census_derive]
    rfl
  · rename_i outside
    exact List.count_eq_zero_of_not_mem fun hc => outside (Occurs.mem_alphabet ⟨n, hc⟩)

end Grammar

namespace Render

theorem movements_strip (g : Grammar) (t : CommandTable) (w : Word) :
    t.interpreter.movements (g.strip w) =
      ∑ c ∈ t.movement.toList.toFinset with c ∉ g.scaffolding, w.count c := by
  have kept (c : Char) : (t.interpreter.isMovement c && !g.scaffolding.contains c) = true ↔
      c ∈ t.movement ∧ c ∉ g.scaffolding := by
    rw [Bool.and_eq_true, Bool.not_eq_true', ← Bool.not_eq_true, SymbolSet.contains_iff]
    exact and_congr_left fun _ => SymbolSet.contains_iff
  have mem (c : Char) : c ∈ t.movement.toList.toFinset ↔ c ∈ t.movement := List.mem_toFinset
  calc t.interpreter.movements (g.strip w)
      = w.countP fun c => t.interpreter.isMovement c && !g.scaffolding.contains c :=
        List.countP_filter
    _ = w.countP fun c => c ∈ t.movement ∧ c ∉ g.scaffolding :=
        List.countP_congr fun c _ => (kept c).trans decide_eq_true_iff.symm
    _ = ∑ c ∈ w.toFinset with c ∈ t.movement ∧ c ∉ g.scaffolding, w.count c :=
        (Finset.sum_filter_count_eq_countP _ w).symm
    _ = ∑ c ∈ t.movement.toList.toFinset with c ∉ g.scaffolding, w.count c := by
        -- Symbols that the word lacks add nothing to the sum over all movement symbols.
        apply Finset.sum_subset
        · intro c hc
          obtain ⟨-, moves, stays⟩ := Finset.mem_filter.mp hc
          exact Finset.mem_filter.mpr ⟨(mem c).mpr moves, stays⟩
        · intro c hc absent
          obtain ⟨moves, stays⟩ := Finset.mem_filter.mp hc
          refine List.count_eq_zero_of_not_mem fun hw => absent ?_
          exact Finset.mem_filter.mpr ⟨List.mem_toFinset.mpr hw, (mem c).mp moves, stays⟩

/-- Symbols multiply by the growth matrix of the grammar. Its powers, applied to the counts of the
start, give the movements of every generation, and with them the side of the canvas. -/
theorem movements_eq_sum_tally (g : Grammar) (t : CommandTable) (config : Config) (n : Nat) :
    (∀ c, (g.derive (n + 1)).count c =
      ∑ s ∈ (g.derive n).toFinset, (g.derive n).count s * (g.rewrite s).count c) ∧
    (∀ c, (g.derive n).count c = g.tally n c) ∧
    let total := ∑ c ∈ t.movement.toList.toFinset with c ∉ g.scaffolding, g.tally n c
    t.interpreter.movements (g.expand n) = total ∧
      side config t.interpreter (g.expand n) = max config.minSide total := by
  have total : t.interpreter.movements (g.expand n) =
      ∑ c ∈ t.movement.toList.toFinset with c ∉ g.scaffolding, g.tally n c := by
    rw [Grammar.expand, movements_strip]
    simp only [Grammar.count_derive]
  exact ⟨g.count_rewriteWord (g.derive n), g.count_derive n, total,
    congrArg (max config.minSide) total⟩

example : Preset.kochCurve.grammar.tally 2 'F' = 25 := by decide

end Render
end TurtleArt
