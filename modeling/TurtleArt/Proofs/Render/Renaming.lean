import Mathlib.Data.List.Basic
import TurtleArt.Proofs.Render.Outcome

/-! Drawings in another alphabet. A renaming of the symbols that occur, under which rewriting,
scaffolding, commands and movement flags correspond, takes every generation to the generation of the
other grammar. The turtle follows the commands alone, so both are drawn alike, and only a symbol
without a command is reported under its own name. -/

namespace TurtleArt

def Fault.rename (f : Char → Char) : Fault → Fault
  | unknownSymbol c index => unknownSymbol (f c) index
  | fault => fault

namespace Grammar

variable {f : Char → Char} {g h : Grammar} {w : Word} {c : Char}

def Occurs (g : Grammar) (c : Char) : Prop :=
  ∃ n, c ∈ g.derive n

theorem Occurs.induction {P : Char → Prop} (start : ∀ c ∈ g.start, P c)
    (step : ∀ c, P c → ∀ d ∈ g.rewrite c, P d) (hc : g.Occurs c) : P c := by
  obtain ⟨n, hc⟩ := hc
  induction n generalizing c with
  | zero => exact start c hc
  | succ n ih =>
    obtain ⟨b, hb, hmem⟩ := List.mem_flatMap.mp hc
    exact step b (ih hb) c hmem

theorem forall_occurs_of_closed {P : Char → Prop} [DecidablePred P] (alphabet : List Char)
    (start : g.start.all alphabet.contains)
    (closed : alphabet.all fun c => (g.rewrite c).all alphabet.contains)
    (checked : alphabet.all fun c => decide (P c)) : ∀ c, g.Occurs c → P c := by
  simp only [List.all_eq_true, List.contains_iff_mem, decide_eq_true_eq] at start closed checked
  exact fun c hc => checked c (Occurs.induction start closed hc)

theorem rewriteWord_map (rewrite : ∀ c ∈ w, h.rewrite (f c) = (g.rewrite c).map f) :
    h.rewriteWord (w.map f) = (g.rewriteWord w).map f := by
  rw [rewriteWord, rewriteWord, List.flatMap_map, List.map_flatMap]
  exact List.flatMap_congr rewrite

theorem derive_renamed (start : h.start = g.start.map f)
    (rewrite : ∀ c, g.Occurs c → h.rewrite (f c) = (g.rewrite c).map f) (n : Nat) :
    h.derive n = (g.derive n).map f := by
  induction n with
  | zero => exact start
  | succ n ih =>
    rw [derive_succ, derive_succ, ih]
    exact rewriteWord_map fun c hc => rewrite c ⟨n, hc⟩

theorem strip_map (scaffolding : ∀ c ∈ w, c ∈ g.scaffolding ↔ f c ∈ h.scaffolding) :
    h.strip (w.map f) = (g.strip w).map f := by
  rw [strip, strip, List.filter_map]
  congr 1
  apply List.filter_congr
  intro c hc
  have same : h.scaffolding.contains (f c) = g.scaffolding.contains c := by
    rw [Bool.eq_iff_iff, SymbolSet.contains_iff, SymbolSet.contains_iff]
    exact (scaffolding c hc).symm
  exact congrArg not same

theorem occurs_of_mem_expand {n : Nat} (hc : c ∈ g.expand n) : g.Occurs c :=
  ⟨n, List.mem_of_mem_filter hc⟩

end Grammar

namespace Interpreter

variable {f : Char → Char} {i j : Interpreter} {w : Word}

theorem movements_map (isMovement : ∀ c ∈ w, j.isMovement (f c) = i.isMovement c) :
    j.movements (w.map f) = i.movements w := by
  rw [movements, movements, List.countP_map]
  exact List.countP_congr fun c hc => by rw [Function.comp_apply, isMovement c hc]

theorem instructions_map (command? : ∀ c ∈ w, j.command? (f c) = i.command? c) :
    j.instructions (w.map f) = (i.instructions w).mapError (Fault.rename f) := by
  rw [instructions_eq_readFrom, instructions_eq_readFrom]
  generalize 0 = index
  induction w generalizing index with
  | nil => rfl
  | cons c w ih =>
    rw [List.forall_mem_cons] at command?
    rw [List.map_cons, readFrom, readFrom, command?.1, ih command?.2]
    cases i.command? c with
    | none => rfl
    | some command => cases i.readFrom (index + 1) w <;> rfl

end Interpreter

namespace Render

open Interpreter

variable {f : Char → Char} {i j : Interpreter} {w : Word}

theorem mapError_rename_picture (f : Char → Char) (side : Nat) (origin : Position)
    (heading : Direction) (commands : List Command) :
    (picture side origin heading commands).mapError (Fault.rename f) =
      picture side origin heading commands := by
  cases h : picture side origin heading commands with
  | ok art => rfl
  | error fault =>
    obtain ⟨before, c, after, v, -, -, hfail⟩ :=
      (Turtle.run_eq_error_iff_walk (Turtle.follows_walker _)).mp (picture_eq_error_iff.mp h)
    rcases hfail with ⟨m, -, -, rfl⟩ | ⟨-, -, -, rfl⟩ <;> rfl

theorem value_word_map (config : Config) (start : Nat → Position)
    (command? : ∀ c ∈ w, j.command? (f c) = i.command? c)
    (isMovement : ∀ c ∈ w, j.isMovement (f c) = i.isMovement c) :
    (word config j start (w.map f)).value =
      (word config i start w).value.mapError (Fault.rename f) := by
  have renamed := instructions_map command?
  have sized : side config j (w.map f) = side config i w :=
    congrArg (max config.minSide) (movements_map isMovement)
  cases hread : i.instructions w with
  | error fault =>
    rw [hread] at renamed
    rw [value_word_of_unread config start hread, value_word_of_unread config start renamed]
    rfl
  | ok commands =>
    rw [hread] at renamed
    rw [value_word_of_reads config start (instructions_eq_ok_iff.mp hread),
      value_word_of_reads config start (instructions_eq_ok_iff.mp renamed), sized,
      mapError_rename_picture]

end Render

namespace Definition

variable {f : Char → Char} {a b : Definition}

/-- The second definition is the first in other symbols, as far as these occur. -/
structure Renames (f : Char → Char) (a b : Definition) : Prop where
  start : b.start = a.start
  word : b.grammar.start = a.grammar.start.map f
  rewrite : ∀ c, a.grammar.Occurs c → b.grammar.rewrite (f c) = (a.grammar.rewrite c).map f
  scaffolding : ∀ c, a.grammar.Occurs c →
    (c ∈ a.grammar.scaffolding ↔ f c ∈ b.grammar.scaffolding)
  command? : ∀ c, a.grammar.Occurs c →
    b.commands.interpreter.command? (f c) = a.commands.interpreter.command? c
  isMovement : ∀ c, a.grammar.Occurs c →
    b.commands.interpreter.isMovement (f c) = a.commands.interpreter.isMovement c

structure Agrees (a b : Definition) : Prop where
  start : b.start = a.start
  word : b.grammar.start = a.grammar.start
  rules : ∀ c, a.grammar.Occurs c → b.grammar.rules.get? c = a.grammar.rules.get? c
  scaffolding : ∀ c, a.grammar.Occurs c → (c ∈ a.grammar.scaffolding ↔ c ∈ b.grammar.scaffolding)
  ops : ∀ c, a.grammar.Occurs c → b.commands.ops.get? c = a.commands.ops.get? c
  movement : ∀ c, a.grammar.Occurs c → (c ∈ b.commands.movement ↔ c ∈ a.commands.movement)

theorem Agrees.renames (h : Agrees a b) : Renames id a b where
  start := h.start
  word := by rw [h.word, List.map_id]
  rewrite c hc := by rw [List.map_id, id, Grammar.rewrite, Grammar.rewrite, h.rules c hc]
  scaffolding := h.scaffolding
  command? := h.ops
  isMovement c hc := by
    change b.commands.movement.contains c = a.commands.movement.contains c
    rw [Bool.eq_iff_iff, SymbolSet.contains_iff, SymbolSet.contains_iff]
    exact h.movement c hc

theorem Renames.expand_eq (h : Renames f a b) (n : Nat) :
    b.grammar.expand n = (a.grammar.expand n).map f := by
  rw [Grammar.expand, Grammar.derive_renamed h.word h.rewrite]
  exact Grammar.strip_map fun c hc => h.scaffolding c ⟨n, hc⟩

theorem Renames.value_eq (h : Renames f a b) (config : Config) (n : Nat) :
    (Render.definition config b n).value =
      (Render.definition config a n).value.mapError (Fault.rename f) := by
  rw [Render.value_definition, Render.value_definition, h.expand_eq, h.start]
  apply Render.value_word_map
  · exact fun c hc => h.command? c (Grammar.occurs_of_mem_expand hc)
  · exact fun c hc => h.isMovement c (Grammar.occurs_of_mem_expand hc)

end Definition

namespace Render

theorem mapError_rename_id {α : Type} (x : Except Fault α) : x.mapError (Fault.rename id) = x := by
  cases x with
  | ok a => rfl
  | error fault => cases fault <;> rfl

/-- A definition in other symbols has the same outcome, but for the name of a symbol that has no
command. What it says of symbols that never occur makes no difference. -/
theorem outcome_independent_of_alphabet (a : Definition) (config : Config) (n : Nat) :
    (∀ f b, Definition.Renames f a b →
      (definition config b n).value =
        (definition config a n).value.mapError (Fault.rename f)) ∧
      ∀ b, Definition.Agrees a b →
        (definition config b n).value = (definition config a n).value := by
  constructor
  · intro f b renames
    exact renames.value_eq config n
  · intro b agrees
    rw [agrees.renames.value_eq config n, mapError_rename_id]

/-- Two growing tips take turns. In the one comparison they become a single symbol, and a symbol
without a command is reported under its new name. In the other one a rule, an entry and a flag are
added for symbols that never occur. -/
theorem outcome_independent_of_alphabet_of_tips :
    let tips (rest : Word) : Definition :=
      ⟨"tips",
        { start := 'X' :: 'Y' :: rest
          rules := .ofList [('X', ['F', '[', 'Y', ']']), ('Y', ['F', '[', 'X', ']'])]
          scaffolding := .ofList ['X', 'Y'] },
        .ofEdits [.bind 'F' .drawLine, .bind '[' .pushBranch, .bind ']' .popBranch], .middleBottom⟩
    let tip : Definition :=
      ⟨"tip",
        { start := ['Z', 'Z', '¿'], rules := .ofList [('Z', ['λ', '[', 'Z', ']'])]
          scaffolding := .ofList ['Z'] },
        .ofEdits [.bind 'λ' .drawLine, .bind '[' .pushBranch, .bind ']' .popBranch], .middleBottom⟩
    let f (c : Char) :=
      if c = 'X' ∨ c = 'Y' then 'Z' else if c = 'F' then 'λ' else if c = '?' then '¿' else c
    let extended : Definition :=
      ⟨"extended",
        { start := ['X', 'Y']
          rules := .ofList
            [('X', ['F', '[', 'Y', ']']), ('Y', ['F', '[', 'X', ']']), ('+', [']'])]
          scaffolding := .ofList ['X', 'Y', '-'] },
        .ofEdits [.bindStandard, .setMovement 'λ' true], .middleBottom⟩
    (Definition.Renames f (tips ['?']) tip ∧
      (definition {} (tips ['?']) 1).value = .error (.unknownSymbol '?' 6) ∧
      (definition {} tip 1).value = .error (.unknownSymbol '¿' 6)) ∧
    Definition.Agrees (tips []) extended ∧
      ∃ art, (definition {} (tips []) 1).value = .ok art ∧
        (definition {} extended 1).value = .ok art := by
  intro tips tip f extended
  let alphabet := ['X', 'Y', 'F', '[', ']', '?']
  have closed : alphabet.all fun c => ((tips []).grammar.rewrite c).all alphabet.contains := by
    decide
  have each {rest : Word} (known : ('X' :: 'Y' :: rest).all alphabet.contains)
      {P : Char → Prop} [DecidablePred P] (checked : alphabet.all fun c => decide (P c)) :
      ∀ c, (tips rest).grammar.Occurs c → P c :=
    Grammar.forall_occurs_of_closed alphabet known closed checked
  have renames : Definition.Renames f (tips ['?']) tip := by
    have known : ['X', 'Y', '?'].all alphabet.contains := by decide
    exact ⟨rfl, rfl, each known (by decide), each known (by decide), each known (by decide),
      each known (by decide)⟩
  have agrees : Definition.Agrees (tips []) extended := by
    have known : ['X', 'Y'].all alphabet.contains := by decide
    exact ⟨rfl, rfl, each known (by decide), each known (by decide), each known (by decide),
      each known (by decide)⟩
  have failed : (definition {} (tips ['?']) 1).value = .error (.unknownSymbol '?' 6) := by decide +kernel
  have drawn : (definition {} (tips []) 1).value = .ok " ↑\n↖ \n" := by decide +kernel
  have renamed := (outcome_independent_of_alphabet (tips ['?']) {} 1).1 f tip renames
  have same := (outcome_independent_of_alphabet (tips []) {} 1).2 extended agrees
  exact ⟨⟨renames, failed, renamed.trans (congrArg _ failed)⟩, agrees, _, drawn, same.trans drawn⟩

end Render
end TurtleArt
