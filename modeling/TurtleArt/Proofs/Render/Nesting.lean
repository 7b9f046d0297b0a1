import TurtleArt.Proofs.Render.Placement
import TurtleArt.Proofs.Symbol.Canonical
import TurtleArt.Proofs.Turtle.Nesting

/-! Grammars that keep branches balanced. Where every rule puts a balanced word in the stead of a
symbol that is no end of a branch, rewriting does not change how deep a word is nested, and neither
does taking away scaffolding. So a balanced start gives balanced words in every generation, and a
turtle that draws them always finds the pose to return to. -/

namespace TurtleArt

open Nesting

namespace Grammar

variable {g : Grammar} {command? : Char → Option Command}

section Rewriting

variable (rules : ∀ c u, g.rules.get? c = some u → Balanced command? u ∧ ¬IsBracket command? c)

include rules

theorem level?_rewrite (c : Char) (n : Nat) :
    level? command? n (g.rewrite c) = level? command? n [c] := by
  rw [rewrite]
  cases hrule : g.rules.get? c with
  | none => rfl
  | some u =>
    obtain ⟨balanced, plain⟩ := rules c u hrule
    rw [Option.getD_some, balanced.level?_eq, level?_cons, nest?_of_not_isBracket plain]
    rfl

theorem level?_rewriteWord (w : Word) (n : Nat) :
    level? command? n (g.rewriteWord w) = level? command? n w := by
  induction w generalizing n with
  | nil => rfl
  | cons c w ih =>
    have first : g.rewriteWord (c :: w) = g.rewrite c ++ g.rewriteWord w := List.flatMap_cons
    have whole := level?_append command? n [c] w
    rw [first, level?_append, level?_rewrite rules, funext ih]
    exact whole.symm

theorem level?_derive (k n : Nat) :
    level? command? n (g.derive k) = level? command? n g.start := by
  induction k with
  | zero => rfl
  | succ k ih => rw [derive_succ, level?_rewriteWord rules, ih]

end Rewriting

theorem level?_strip (scaffolding : ∀ c ∈ g.scaffolding, ¬IsBracket command? c) (w : Word)
    (n : Nat) : level? command? n (g.strip w) = level? command? n w := by
  induction w generalizing n with
  | nil => rfl
  | cons c w ih =>
    rw [strip, List.filter_cons]
    split
    · rw [level?_cons, level?_cons]
      exact congrArg _ (funext ih)
    · rename_i removed
      have mem : c ∈ g.scaffolding := SymbolSet.contains_iff.mp (by simpa using removed)
      rw [level?_cons, nest?_of_not_isBracket (scaffolding c mem)]
      exact ih n

theorem balanced_expand (start : Balanced command? g.start)
    (rules : ∀ c u, g.rules.get? c = some u → Balanced command? u ∧ ¬IsBracket command? c)
    (scaffolding : ∀ c ∈ g.scaffolding, ¬IsBracket command? c) (n : Nat) :
    Balanced command? (g.expand n) := by
  rw [balanced_iff, expand, level?_strip scaffolding, level?_derive rules]
  exact start.level?_eq 0

end Grammar

namespace Interpreter

variable {i : Interpreter} {w : Word} {commands : List Command}

theorem Reads.level?_eq (h : i.Reads w commands) (n : Nat) :
    level? i.command? n w = level? some n commands := by
  have read {α : Type} (command? : α → Option Command) (l : List α) :
      level? command? n l = level? id n (l.map command?) := by
    unfold level?
    rw [List.foldlM_map]
    rfl
  rw [read i.command? w, read some commands, h]

theorem Reads.exists_walk (h : i.Reads w commands) (balanced : Balanced i.command? w)
    (e : Cell) (d : Direction) :
    ∃ v, (Walker.place e d).walk? commands = some v ∧ v.saved = [] := by
  have depth := Walker.map_walk?_saved (Walker.place e d) commands
  have level : level? some 0 commands = some 0 := by
    rw [← h.level?_eq, balanced.level?_eq]
  change _ = level? some 0 commands at depth
  rw [level, Option.map_eq_some_iff] at depth
  obtain ⟨v, hwalk, hsaved⟩ := depth
  exact ⟨v, hwalk, List.length_eq_zero_iff.mp hsaved⟩

end Interpreter

namespace Render

open Interpreter

variable {config : Config} {i : Interpreter} {start : Nat → Position} {w : Word}

theorem ne_stackUnderflow_of_balanced (balanced : Balanced i.command? w) (index : Nat) :
    (word config i start w).value ≠ .error (.stackUnderflow index) := by
  intro h
  cases hread : i.instructions w with
  | error f =>
    obtain ⟨u, c, v, -, -, -, rfl⟩ := instructions_eq_error_iff.mp hread
    rw [value_word_of_unread config start hread] at h
    cases h
  | ok commands =>
    have reads := instructions_eq_ok_iff.mp hread
    rw [value_word_of_reads config start reads, picture_eq_error_iff,
      Turtle.run_eq_error_iff_walk (Turtle.follows_place_toCell ..)] at h
    obtain ⟨before, c, after, v, rfl, clears, hfail⟩ := h
    rcases hfail with ⟨m, -, -, hfault⟩ | ⟨rfl, hsaved, -, -⟩
    · cases hfault
    · obtain ⟨u, hwalk, -⟩ := reads.exists_walk balanced _ _
      have stuck : v.next? .popBranch = none := Walker.next?_eq_none_iff.mpr ⟨rfl, hsaved⟩
      rw [Walker.walk?_append, clears.1, Option.bind_some, Walker.walk?_cons, stuck] at hwalk
      cases hwalk

/-- A grammar whose rules keep branches balanced yields balanced words only. Drawing them never
closes a branch that is not open, and leaves none open. -/
theorem balanced_grammar_never_underflows (d : Definition)
    (balanced : Balanced d.commands.interpreter.command? d.grammar.start)
    (rules : ∀ c u, d.grammar.rules.get? c = some u →
      Balanced d.commands.interpreter.command? u ∧ ¬IsBracket d.commands.interpreter.command? c)
    (scaffolding : ∀ c ∈ d.grammar.scaffolding, ¬IsBracket d.commands.interpreter.command? c)
    (n : Nat) :
    Balanced d.commands.interpreter.command? (d.grammar.expand n) ∧
      (∀ config index, (definition config d n).value ≠ .error (.stackUnderflow index)) ∧
      ∀ (config : Config) (start : Nat → Position),
        let i := d.commands.interpreter
        let side := side config i (d.grammar.expand n)
        (∀ index, (grammar config d.grammar i start n).value ≠ .error (.stackUnderflow index)) ∧
          ∀ art, (grammar config d.grammar i start n).value = .ok art →
            ∃ commands t, i.Reads (d.grammar.expand n) commands ∧
              (Turtle.place (.blank side) (start side) config.heading).run commands = .ok t ∧
              t.canvas.draw = art ∧ t.saved = [] := by
  have whole := Grammar.balanced_expand balanced rules scaffolding n
  refine ⟨whole, ?_, ?_⟩
  · intro config index
    rw [value_definition]
    exact ne_stackUnderflow_of_balanced whole index
  · intro config start i side
    rw [value_grammar]
    refine ⟨ne_stackUnderflow_of_balanced whole, ?_⟩
    intro art h
    obtain ⟨commands, t, reads, hrun, hart⟩ := exists_run_of_value h
    obtain ⟨v, hwalk, hsaved⟩ := reads.exists_walk whole (start side).toCell config.heading
    obtain ⟨v', clears, there⟩ :=
      Turtle.clears_of_run (Turtle.follows_place_toCell ..) hrun
    obtain rfl : v' = v := Option.some.inj (clears.1.symm.trans hwalk)
    exact ⟨commands, t, reads, hrun, hart, by rw [there.saved, hsaved, List.map_nil]⟩

/-- A bush whose rule nests a branch in a branch, with the growing tip as scaffolding. -/
theorem balanced_grammar_never_underflows_of_bush :
    let rule := ('X', ['[', '+', 'F', 'X', ']', 'F', 'X'])
    let d : Definition :=
      ⟨"bush", { start := ['F', 'X'], rules := .ofList [rule], scaffolding := .ofList ['X'] },
        CommandTable.ofEdits [.bindStandard], .central⟩
    let i := d.commands.interpreter
    let start (side : Nat) := StartPosition.central.origin side
    let side := side { minSide := 9 } i (d.grammar.expand 2)
    Balanced i.command? d.grammar.start ∧
      (∀ c u, d.grammar.rules.get? c = some u →
        Balanced i.command? u ∧ ¬IsBracket i.command? c) ∧
      (∀ c ∈ d.grammar.scaffolding, ¬IsBracket i.command? c) ∧
      Balanced i.command? (d.grammar.expand 2) ∧
      ∃ commands t, i.Reads (d.grammar.expand 2) commands ∧
        (Turtle.place (.blank side) (start side) .north).run commands = .ok t ∧
        t.canvas.draw = "  ←↗→\n  ↑  \n←↙→  \n" ∧ t.saved = [] := by
  intro rule d i start side
  have balanced : Balanced i.command? d.grammar.start := by decide
  have entries : ∀ entry ∈ d.grammar.rules.toList,
      Balanced i.command? entry.2 ∧ ¬IsBracket i.command? entry.1 := by decide
  have rules : ∀ c u, d.grammar.rules.get? c = some u →
      Balanced i.command? u ∧ ¬IsBracket i.command? c :=
    fun c u h => entries (c, u) (SymbolMap.mem_toList_iff.mpr h)
  have scaffolding : ∀ c ∈ d.grammar.scaffolding, ¬IsBracket i.command? c := by
    intro c hc
    obtain rfl : c = 'X' := List.mem_singleton.mp hc
    decide
  obtain ⟨whole, -, drawing⟩ :=
    balanced_grammar_never_underflows d balanced rules scaffolding 2
  have drawn : (grammar { minSide := 9 } d.grammar i start 2).value =
      .ok "  ←↗→\n  ↑  \n←↙→  \n" := by decide +kernel
  exact ⟨balanced, rules, scaffolding, whole, (drawing { minSide := 9 } start).2 _ drawn⟩

end Render
end TurtleArt
