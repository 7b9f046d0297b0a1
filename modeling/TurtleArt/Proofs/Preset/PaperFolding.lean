import Mathlib.Algebra.Order.Ring.Nat
import Mathlib.Data.Nat.Factorization.Basic
import Mathlib.Tactic.Ring
import TurtleArt.Proofs.Preset.DragonCurve

/-! The dragon curve is a strip of paper, folded in half in the same direction over and over and
opened to right angles. The crease at `k` turns to the left or to the right as the odd part of `k`
says. Two neighboring curves that make up the next generation bring turns of their own to the crease
between them, but these cancel each other. -/

namespace TurtleArt.DragonCurve

open Interpreter Walker

section Creases

variable {n k : Nat}

theorem ordCompl_two_mod_four (hk : k ≠ 0) : ordCompl[2] k % 4 = 1 ∨ ordCompl[2] k % 4 = 3 := by
  have odd : ¬2 ∣ ordCompl[2] k := Nat.not_dvd_ordCompl Nat.prime_two hk
  omega

theorem ordCompl_two_pow_add (h : ¬2 ^ n ∣ k) :
    ordCompl[2] (2 ^ (n + 1) + k) % 4 = ordCompl[2] k % 4 := by
  have hk : k ≠ 0 := fun hk => h (hk ▸ dvd_zero _)
  obtain ⟨a, b, odd, rfl⟩ := Nat.exists_eq_two_pow_mul_odd hk
  have lt : a < n := by
    by_contra hle
    exact h (Dvd.dvd.mul_right (pow_dvd_pow 2 (Nat.le_of_not_lt hle)) b)
  obtain ⟨j, rfl⟩ := Nat.exists_eq_add_of_le lt
  have parts : 2 ^ (a + 1 + j + 1) + 2 ^ a * b = 2 ^ a * (4 * 2 ^ j + b) := by ring
  have two_not_dvd : ¬2 ∣ b := odd.not_two_dvd_nat
  have two_not_dvd_sum : ¬2 ∣ 4 * 2 ^ j + b := by omega
  rw [parts, Nat.ordCompl_pow_mul_of_not_dvd a Nat.prime_two two_not_dvd,
    Nat.ordCompl_pow_mul_of_not_dvd a Nat.prime_two two_not_dvd_sum]
  omega

def fold (k : Nat) : Command :=
  if ordCompl[2] k % 4 = 1 then .turnLeft else .turnRight

theorem fold_two_pow (n : Nat) : fold (2 ^ n) = .turnLeft := by
  rw [fold, Nat.ordCompl_self_pow Nat.prime_two]
  rfl

theorem fold_three_mul_two_pow (n : Nat) : fold (2 ^ (n + 1) + 2 ^ n) = .turnRight := by
  have parts : 2 ^ (n + 1) + 2 ^ n = 2 ^ n * 3 := by ring
  rw [fold, parts, Nat.ordCompl_pow_mul_of_not_dvd n Nat.prime_two (by decide)]
  rfl

theorem fold_two_pow_add (h : ¬2 ^ n ∣ k) : fold (2 ^ (n + 1) + k) = fold k := by
  rw [fold, fold, ordCompl_two_pow_add h]

/-- The turns between two lines: the one at their crease, with a turn to either side around it
unless the crease is one of the last fold. -/
def gap (k : Nat) : List Command :=
  if k % 2 = 1 then [fold k] else [.turnLeft, fold k, .turnRight]

def lead : Nat → List Command
  | 0 => []
  | _ + 1 => [.turnRight]

def trail : Nat → List Command
  | 0 => []
  | _ + 1 => [.turnLeft]

theorem gap_two_pow (n : Nat) : gap (2 ^ n) = trail n ++ .turnLeft :: lead n := by
  rw [gap, fold_two_pow]
  cases n with
  | zero => rfl
  | succ n => rw [if_neg (by omega)]; rfl

theorem gap_three_mul_two_pow (n : Nat) :
    gap (2 ^ (n + 1) + 2 ^ n) = trail n ++ .turnRight :: lead n := by
  rw [gap, fold_three_mul_two_pow]
  cases n with
  | zero => rfl
  | succ n => rw [if_neg (by omega)]; rfl

theorem gap_two_pow_add (h : ¬2 ^ n ∣ k) : gap (2 ^ (n + 1) + k) = gap k := by
  have parity : (2 ^ (n + 1) + k) % 2 = k % 2 := by omega
  rw [gap, gap, fold_two_pow_add h, parity]

end Creases

section Strips

variable {start count d n : Nat}

def creased (start count : Nat) : List Command :=
  (List.range' start count).flatMap fun k => .drawLine :: gap k

theorem creased_append (start m n : Nat) :
    creased start m ++ .drawLine :: (gap (start + m) ++ creased (start + m + 1) n) =
      creased start (m + 1 + n) := by
  have joined : List.range' start (m + 1 + n) =
      List.range' start m ++ (start + m) :: List.range' (start + m + 1) n := by
    rw [Nat.add_assoc, ← List.range'_append_1, Nat.add_comm 1 n, List.range'_succ]
  rw [creased, creased, creased, joined, List.flatMap_append, List.flatMap_cons]
  rfl

theorem creased_add (h : ∀ k, start ≤ k → k < start + count → gap (d + k) = gap k) :
    creased (d + start) count = creased start count := by
  rw [creased, ← List.map_add_range', List.flatMap_map]
  apply List.flatMap_congr
  intro k hk
  obtain ⟨le, lt⟩ := List.mem_range'_1.mp hk
  rw [h k le lt]

/-- The two curves are the two halves of a strip with one more fold, apart from the turns at
their ends. -/
theorem curves_eq_creased (n : Nat) :
    leftCurve n = creased 1 (2 ^ n - 1) ++ .drawLine :: trail n ∧
      rightCurve n = lead n ++ (creased (2 ^ n + 1) (2 ^ n - 1) ++ [.drawLine]) := by
  induction n with
  | zero => exact ⟨rfl, rfl⟩
  | succ n ih =>
    obtain ⟨hleft, hright⟩ := ih
    have positive : 0 < 2 ^ n := Nat.two_pow_pos n
    have doubled : 2 ^ (n + 1) = 2 ^ n + 2 ^ n := by ring
    have lines : 2 ^ (n + 1) - 1 = 2 ^ n - 1 + 1 + (2 ^ n - 1) := by omega
    have not_dvd (k : Nat) (hk : 0 < k) (lt : k < 2 ^ n) : ¬2 ^ n ∣ k :=
      Nat.not_dvd_of_pos_of_lt hk lt
    constructor
    · rw [leftCurve_succ, hleft, hright, lines, ← creased_append,
        show 1 + (2 ^ n - 1) = 2 ^ n by omega, gap_two_pow]
      simp [trail]
    · have early : creased (2 ^ (n + 1) + 1) (2 ^ n - 1) = creased 1 (2 ^ n - 1) :=
        creased_add fun k le lt => gap_two_pow_add (not_dvd k le (by omega))
      have late : creased (2 ^ (n + 1) + (2 ^ n + 1)) (2 ^ n - 1) =
          creased (2 ^ n + 1) (2 ^ n - 1) :=
        creased_add fun k le lt => gap_two_pow_add fun hdvd =>
          not_dvd (k - 2 ^ n) (by omega) (by omega) (Nat.dvd_sub hdvd dvd_rfl)
      -- Moved by `2 ^ (n + 1)`, all creases but the one in the middle turn as they did.
      rw [rightCurve_succ, hleft, hright, lines, ← creased_append, early,
        show 2 ^ (n + 1) + 1 + (2 ^ n - 1) = 2 ^ (n + 1) + 2 ^ n by omega, gap_three_mul_two_pow,
        Nat.add_assoc, late]
      simp [lead]

theorem exists_creased_append_eq_cons (start count : Nat) (l : List Command) :
    ∃ after, creased start count ++ .drawLine :: l = .drawLine :: after := by
  cases count with
  | zero => exact ⟨l, rfl⟩
  | succ count => exact ⟨_, by rw [creased, List.range'_succ, List.flatMap_cons]; rfl⟩

theorem countP_isDrawing_gap (k : Nat) : (gap k).countP Command.isDrawing = 0 := by
  rw [gap, fold]
  split <;> split <;> rfl

theorem countP_isDrawing_creased (start count : Nat) :
    (creased start count).countP Command.isDrawing = count := by
  have one (k : Nat) : (Command.drawLine :: gap k).countP Command.isDrawing = 1 := by
    rw [List.countP_cons, countP_isDrawing_gap]
    rfl
  rw [creased, List.countP_flatMap]
  simp [Function.comp_def, one]

theorem exists_crease {k : Nat} (hk : 0 < k) (lt : k < 2 ^ n) : ∃ before after,
    leftCurve n = before ++ .drawLine :: (gap k ++ .drawLine :: after) ∧
      before.countP Command.isDrawing + 1 = k := by
  obtain ⟨after, hafter⟩ := exists_creased_append_eq_cons (k + 1) (2 ^ n - 1 - k) (trail n)
  refine ⟨creased 1 (k - 1), after, ?_, ?_⟩
  · have lines : 2 ^ n - 1 = k - 1 + 1 + (2 ^ n - 1 - k) := by omega
    rw [(curves_eq_creased n).1, lines, ← creased_append, show 1 + (k - 1) = k by omega, ← hafter]
    simp
  · rw [countP_isDrawing_creased]
    omega

end Strips

section Symbols

def symbol : Command → Char
  | .drawLeaf | .drawLine => 'F'
  | .turnLeft => '+'
  | .turnRight => '-'
  | .pushBranch => '['
  | .popBranch => ']'

theorem symbol_of_command? {c : Char} {command : Command}
    (h : Preset.curveCommands.interpreter.command? c = some command) :
    symbol command = c ∧ (command = .drawLine ∨ command = .turnLeft ∨ command = .turnRight) := by
  have entries : ∀ entry ∈ Preset.curveCommands.ops.toList, symbol entry.2 = entry.1 ∧
      (entry.2 = .drawLine ∨ entry.2 = .turnLeft ∨ entry.2 = .turnRight) := by decide
  exact entries (c, command) (SymbolMap.mem_toList_iff.mpr h)

theorem unbranched_leftCurve (n : Nat) :
    ∀ c ∈ leftCurve n, c = .drawLine ∨ c = .turnLeft ∨ c = .turnRight := by
  intro c hc
  have read : some c ∈ (leftCurve n).map some := List.mem_map_of_mem hc
  rw [← reads_expand n] at read
  obtain ⟨s, -, hs⟩ := List.mem_map.mp read
  exact (symbol_of_command? hs).2

theorem expand_eq_map_symbol (n : Nat) :
    Preset.dragonCurve.grammar.expand n = (leftCurve n).map symbol := by
  have spelled (w : Word) (commands : List Command)
      (h : Preset.curveCommands.interpreter.Reads w commands) : w = commands.map symbol := by
    induction w generalizing commands with
    | nil =>
      obtain rfl : commands = [] := by simpa using h.length_eq
      rfl
    | cons c w ih =>
      obtain ⟨command, rest, rfl, hc, hrest⟩ := reads_cons_iff.mp h
      rw [List.map_cons, ← ih rest hrest, (symbol_of_command? hc).1]
  exact spelled _ _ (reads_expand n)

theorem count_map_symbol (commands : List Command) :
    (commands.map symbol).count 'F' = commands.countP Command.isDrawing := by
  rw [List.count, List.countP_map]
  apply List.countP_congr
  intro command _
  cases command <;> decide

/-- The turns between the `k`th line of a word and the next come to `net` quarters, counted to the
left. -/
def NetTurn (w : Word) (k : Nat) (net : Int) : Prop :=
  ∃ before turns after, w = before ++ 'F' :: (turns ++ 'F' :: after) ∧
    before.count 'F' + 1 = k ∧ 'F' ∉ turns ∧ (turns.count '+' : Int) - turns.count '-' = net

theorem netTurn_expand {n k : Nat} (hk : 0 < k) (lt : k < 2 ^ n) :
    NetTurn (Preset.dragonCurve.grammar.expand n) k (if ordCompl[2] k % 4 = 1 then 1 else -1) := by
  obtain ⟨before, after, hcurve, hcount⟩ := exists_crease hk lt
  refine ⟨before.map symbol, (gap k).map symbol, after.map symbol, ?_, ?_, ?_, ?_⟩
  · rw [expand_eq_map_symbol, hcurve]
    simp [symbol]
  · rw [count_map_symbol, hcount]
  · rw [← List.count_eq_zero, count_map_symbol, countP_isDrawing_gap]
  · rw [gap, fold]
    split <;> split <;> rfl

end Symbols

section Path

theorem exists_walk_of_unbranched {commands : List Command}
    (h : ∀ c ∈ commands, c = .drawLine ∨ c = .turnLeft ∨ c = .turnRight) (p : Cell)
    (d : Direction) : ∃ q e, (place p d).walk? commands = some (place q e) ∧
      ((place p d).marks commands).length = commands.countP Command.isDrawing := by
  induction commands generalizing p d with
  | nil => exact ⟨p, d, rfl, rfl⟩
  | cons c commands ih =>
    rw [List.forall_mem_cons] at h
    rcases h.1 with rfl | rfl | rfl
    · obtain ⟨q, e, hwalk, hmarks⟩ := ih h.2 (p.advance d) d
      rw [List.countP_cons_of_pos rfl, ← hmarks]
      exact ⟨q, e, hwalk, rfl⟩
    · exact ih h.2 p d.left.left
    · exact ih h.2 p d.right.right

/-- From the `k`th mark to the next, the path turns as given and goes one step ahead. -/
def BendsAt (marks : List Mark) (k : Nat) (turn : Direction → Direction) : Prop :=
  ∃ q e, marks[k - 1]? = some ⟨q, e.arrow⟩ ∧
    marks[k]? = some ⟨q.advance (turn e), (turn e).arrow⟩

def bend (k : Nat) (e : Direction) : Direction :=
  if ordCompl[2] k % 4 = 1 then e.left.left else e.right.right

theorem marks_gap (p : Cell) (e : Direction) (k : Nat) (commands : List Command) :
    (place p e).marks (gap k ++ commands) = (place p (bend k e)).marks commands := by
  have turned : (place p e).walk? (gap k) = some (place p (bend k e)) := by
    rw [gap, fold, bend]
    split <;> split <;> cases e <;> rfl
  have unmarked : (place p e).marks (gap k) = [] := by
    rw [gap, fold]
    split <;> split <;> rfl
  rw [marks_append turned, unmarked, List.nil_append]

theorem bendsAt_leftCurve {n k : Nat} (hk : 0 < k) (lt : k < 2 ^ n) (p : Cell)
    (d : Direction) : BendsAt ((place p d).marks (leftCurve n)) k (bend k) := by
  obtain ⟨before, after, hcurve, hcount⟩ := exists_crease hk lt
  have unbranched : ∀ c ∈ before, c = .drawLine ∨ c = .turnLeft ∨ c = .turnRight :=
    fun c hc => unbranched_leftCurve n c (hcurve ▸ List.mem_append_left _ hc)
  obtain ⟨q, e, hwalk, hlength⟩ := exists_walk_of_unbranched unbranched p d
  rw [← hlength] at hcount
  have line (q : Cell) (e : Direction) (commands : List Command) :
      (place q e).marks (.drawLine :: commands) =
        ⟨q.advance e, e.arrow⟩ :: (place (q.advance e) e).marks commands := rfl
  refine ⟨q.advance e, e, ?_, ?_⟩
  all_goals
    rw [hcurve, marks_append hwalk, line, marks_gap, line, ← hcount]
    simp

end Path

/-- Every generation of the dragon curve is the regular folding of a strip of paper. Its word has a
line for each of the `2 ^ n` parts of the strip, and between two of them the turns come to a
quarter, to the left or to the right as the odd part of the crease says. The path turns by as much
from each of its cells to the next. -/
theorem generation_folds_paper (n : Nat) :
    let w : Word := Preset.dragonCurve.grammar.expand n
    let i := Preset.dragonCurve.commands.interpreter
    (∀ c ∈ w, c = 'F' ∨ c = '+' ∨ c = '-') ∧ w.count 'F' = 2 ^ n ∧ w.head? = some 'F' ∧
      ∃ commands, i.Reads w commands ∧
        (∀ p d, ((place p d).marks commands).length = 2 ^ n) ∧
        ∀ k, 0 < k → k < 2 ^ n →
          ordCompl[2] k % 4 = 1 ∧ NetTurn w k 1 ∧
            (∀ p d, BendsAt ((place p d).marks commands) k fun e => e.left.left) ∨
          ordCompl[2] k % 4 = 3 ∧ NetTurn w k (-1) ∧
            ∀ p d, BendsAt ((place p d).marks commands) k fun e => e.right.right := by
  intro w i
  have lines : (leftCurve n).countP Command.isDrawing = 2 ^ n := (countP_isDrawing_curves n).1
  have spelled : w = (leftCurve n).map symbol := expand_eq_map_symbol n
  refine ⟨?_, ?_, ?_, leftCurve n, reads_expand n, ?_, ?_⟩
  · rw [spelled, List.forall_mem_map]
    intro c hc
    rcases unbranched_leftCurve n c hc with rfl | rfl | rfl <;> decide
  · rw [spelled, count_map_symbol, lines]
  · obtain ⟨after, hafter⟩ := exists_creased_append_eq_cons 1 (2 ^ n - 1) (trail n)
    rw [spelled, (curves_eq_creased n).1, hafter]
    rfl
  · intro p d
    obtain ⟨q, e, -, hlength⟩ := exists_walk_of_unbranched (unbranched_leftCurve n) p d
    rw [hlength, lines]
  · intro k hk lt
    have turns := netTurn_expand hk lt
    have bends := bendsAt_leftCurve hk lt
    rcases ordCompl_two_mod_four (Nat.ne_of_gt hk) with left | right
    · rw [if_pos left] at turns
      have bend_eq : bend k = fun e => e.left.left := funext fun e => if_pos left
      exact .inl ⟨left, turns, bend_eq ▸ bends⟩
    · have not_left : ordCompl[2] k % 4 ≠ 1 := by omega
      rw [if_neg not_left] at turns
      have bend_eq : bend k = fun e => e.right.right := funext fun e => if_neg not_left
      exact .inr ⟨right, turns, bend_eq ▸ bends⟩

/-- The sixth crease of eight parts, where the turns are `+--`. -/
theorem generation_folds_paper_six :
    0 < 6 ∧ 6 < 2 ^ 3 ∧ ordCompl[2] 6 % 4 = 3 ∧
      NetTurn (Preset.dragonCurve.grammar.expand 3) 6 (-1) ∧
      BendsAt ((place ⟨0, 0⟩ .north).marks (leftCurve 3)) 6 fun e => e.right.right := by
  have not_dvd : ¬2 ∣ 3 := by decide
  have odd : ordCompl[2] 6 = 3 := Nat.ordCompl_pow_mul_of_not_dvd 1 Nat.prime_two not_dvd
  obtain ⟨-, -, -, commands, reads, -, creases⟩ := generation_folds_paper 3
  obtain rfl := reads.unique (reads_expand 3)
  rcases creases 6 (by decide) (by decide) with ⟨left, -⟩ | ⟨right, turns, bends⟩
  · rw [odd] at left
    cases left
  · exact ⟨by decide, by decide, right, turns, bends _ _⟩

end TurtleArt.DragonCurve
