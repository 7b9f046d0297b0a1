import TurtleArt.Proofs.Render.Reading
import TurtleArt.Proofs.Turtle.Simulation
import TurtleArt.Render.Basic

/-! How drawing a word ends, told without a canvas: by the symbols of the word, by the poses of a
walk, and by the square that its marks have to stay within. -/

namespace TurtleArt.Render

open Interpreter

/-- How a word fails to be drawn by a walk from `start` over a canvas of the given side, where each
cell is found under its address. A symbol without a command counts first, wherever it stands.
Failing that, the symbols of `u` are drawn well and the command of the symbol behind them is not: it
draws beside the canvas or, if its own cell is on the canvas, closes a branch when all that were
opened have been closed. -/
inductive Fails (i : Interpreter) (side : Nat) (start : Walker) : Word → Fault → Prop
  | unknownSymbol {u v : Word} {c : Char} (known : ∀ d ∈ u, i.command? d ≠ none)
      (unknown : i.command? c = none) :
      Fails i side start (u ++ c :: v) (.unknownSymbol c u.length)
  | outOfBounds {u v : Word} {c : Char} {before : List Command} {command : Command} {w : Walker}
      {m : Mark} (known : ∀ d ∈ u ++ c :: v, i.command? d ≠ none) (reads : i.Reads u before)
      (reads_here : i.command? c = some command) (clears : start.Clears side before w)
      (mark : w.mark? command = some m) (outside : ¬m.cell.wrap.Within side) :
      Fails i side start (u ++ c :: v) (.outOfBounds m.cell.wrap side)
  | stackUnderflow {u v : Word} {c : Char} {before : List Command} {w : Walker}
      (known : ∀ d ∈ u ++ c :: v, i.command? d ≠ none) (reads : i.Reads u before)
      (reads_here : i.command? c = some .popBranch) (clears : start.Clears side before w)
      (closed : before.count .popBranch = before.count .pushBranch)
      (inside : w.stance.cell.wrap.Within side) :
      Fails i side start (u ++ c :: v) (.stackUnderflow u.length)

variable {i : Interpreter} {side : Nat} {w : Word} {commands : List Command} {f : Fault}

theorem value_word_of_reads (config : Config) (start : Nat → Position) (h : i.Reads w commands) :
    (word config i start w).value = picture (Render.side config i w)
      (start (Render.side config i w)) config.heading commands := by
  rw [word, instructions_eq_ok_iff.mpr h]
  rfl

theorem value_grammar (config : Config) (g : Grammar) (i : Interpreter) (start : Nat → Position)
    (n : Nat) : (grammar config g i start n).value = (word config i start (g.expand n)).value := by
  unfold grammar
  rw [Logged.value_bind, value_grow_start]
  rfl

theorem value_definition (config : Config) (d : Definition) (n : Nat) :
    (definition config d n).value = (word config d.commands.interpreter
      (fun side => d.start.origin side) (d.grammar.expand n)).value :=
  value_grammar ..

theorem value_word_of_unread {f : Fault} (config : Config) (start : Nat → Position)
    (h : i.instructions w = .error f) : (word config i start w).value = .error f := by
  rw [word, h]
  rfl

theorem picture_eq_error_iff {origin : Position} {heading : Direction} :
    picture side origin heading commands = .error f ↔
      ((Turtle.place (.blank side) origin heading).run commands).mapError
        Turtle.Failure.cause = .error f := by
  unfold picture
  cases (Turtle.place (.blank side) origin heading).run commands <;> simp [Except.mapError]

theorem value_word_eq_error_iff (config : Config) (start : Nat → Position) :
    (word config i start w).value = .error f ↔ i.instructions w = .error f ∨
      ∃ commands, i.Reads w commands ∧ picture (Render.side config i w)
        (start (Render.side config i w)) config.heading commands = .error f := by
  cases hread : i.instructions w with
  | error g =>
    have unread : ∀ commands, ¬i.Reads w commands := fun commands reads => by
      cases hread.symm.trans (instructions_eq_ok_iff.mpr reads)
    simp [value_word_of_unread config start hread, unread]
  | ok commands =>
    have reads := instructions_eq_ok_iff.mp hread
    have only (commands' : List Command) : i.Reads w commands' ↔ commands' = commands :=
      ⟨fun reads' => reads'.unique reads, fun h => h ▸ reads⟩
    simp [value_word_of_reads config start reads, only]

theorem exists_reads_of_known (h : ∀ d ∈ w, i.command? d ≠ none) :
    ∃ commands, i.Reads w commands := by
  cases hread : i.instructions w with
  | ok commands => exact ⟨commands, instructions_eq_ok_iff.mp hread⟩
  | error f =>
    obtain ⟨u, c, v, rfl, -, unknown, -⟩ := instructions_eq_error_iff.mp hread
    exact absurd unknown (h c (by simp))

theorem known_of_reads (h : i.Reads w commands) : ∀ d ∈ w, i.command? d ≠ none := by
  intro d hd hnone
  have : none ∈ commands.map some := by
    rw [← h]
    exact List.mem_map.mpr ⟨d, hd, hnone⟩
  simp at this

theorem saved_eq_nil_iff {origin : Cell} {heading : Direction} {v : Walker}
    (h : (Walker.place origin heading).walk? commands = some v) :
    v.saved = [] ↔ commands.count .popBranch = commands.count .pushBranch := by
  have depth : v.saved.length + commands.count .popBranch = 0 + commands.count .pushBranch :=
    Walker.length_saved h
  rw [← List.length_eq_zero_iff]
  omega

theorem fails_iff_of_reads {origin : Position} {heading : Direction} (h : i.Reads w commands) :
    Fails i side (.place origin.toCell heading) w f ↔
      picture side origin heading commands = .error f := by
  have known := known_of_reads h
  rw [picture_eq_error_iff, Turtle.run_eq_error_iff_walk (Turtle.follows_place_toCell ..)]
  constructor
  · intro hfail
    cases hfail with
    | unknownSymbol _ unknown => exact absurd unknown (known _ (by simp))
    -- What the symbols before the failure mean is what the commands before it are.
    | @outOfBounds u v c before command w m _ reads reads_here clears mark outside =>
      obtain ⟨before', command', after, rfl, hu, hc⟩ := h.exists_command
      obtain rfl := reads.unique hu
      obtain rfl := Option.some.inj (reads_here.symm.trans hc)
      exact ⟨before, command, after, w, rfl, clears, .inl ⟨m, mark, outside, rfl⟩⟩
    | @stackUnderflow u v c before w _ reads reads_here clears closed inside =>
      obtain ⟨before', command', after, rfl, hu, hc⟩ := h.exists_command
      obtain rfl := reads.unique hu
      obtain rfl := Option.some.inj (reads_here.symm.trans hc)
      refine ⟨before, .popBranch, after, w, rfl, clears, .inr ⟨rfl, ?_, inside, ?_⟩⟩
      · exact (saved_eq_nil_iff clears.1).mpr closed
      · rw [← reads.length_eq]
        exact congrArg Fault.stackUnderflow (Nat.zero_add _).symm
  · rintro ⟨before, command, after, v, rfl, clears, hfail⟩
    obtain ⟨u, c, rest, rfl, hu, hc⟩ := h.exists_symbol
    rcases hfail with ⟨m, mark, outside, rfl⟩ | ⟨rfl, hsaved, inside, rfl⟩
    · exact .outOfBounds known hu hc clears mark outside
    · have closed := (saved_eq_nil_iff clears.1).mp hsaved
      have fails : Fails i side _ (u ++ c :: rest) (.stackUnderflow u.length) :=
        .stackUnderflow known hu hc clears closed inside
      rw [← hu.length_eq] at fails
      simpa [Turtle.place] using fails

theorem fails_iff_of_unread {start : Walker} {g : Fault} (h : i.instructions w = .error g) :
    Fails i side start w f ↔ g = f := by
  have unread : ¬∀ d ∈ w, i.command? d ≠ none := by
    intro known
    obtain ⟨commands, reads⟩ := exists_reads_of_known known
    cases h.symm.trans (instructions_eq_ok_iff.mpr reads)
  constructor
  · intro hfail
    cases hfail with
    | @unknownSymbol u v c known unknown =>
      have first := instructions_eq_error_iff.mpr ⟨u, c, v, rfl, known, unknown, rfl⟩
      exact Except.error.inj (h.symm.trans first)
    | outOfBounds known => exact absurd known unread
    | stackUnderflow known => exact absurd known unread
  · rintro rfl
    obtain ⟨u, c, v, rfl, known, unknown, rfl⟩ := instructions_eq_error_iff.mp h
    exact .unknownSymbol known unknown

/-- The outcome of drawing a word: it fails just as the walk over the square says, with that very
fault, and otherwise yields a picture. -/
theorem word_outcome (config : Config) (i : Interpreter) (start : Nat → Position) (w : Word) :
    let side := max config.minSide (w.countP i.isMovement)
    let walker := Walker.place (start side).toCell config.heading
    (∀ f, (word config i start w).value = .error f ↔ Fails i side walker w f) ∧
      ((∃ art, (word config i start w).value = .ok art) ↔ ∀ f, ¬Fails i side walker w f) := by
  intro side walker
  have fault (f : Fault) : (word config i start w).value = .error f ↔ Fails i side walker w f := by
    cases hread : i.instructions w with
    | ok commands =>
      have reads := instructions_eq_ok_iff.mp hread
      rw [value_word_of_reads config start reads]
      exact (fails_iff_of_reads reads).symm
    | error g =>
      rw [value_word_of_unread config start hread, fails_iff_of_unread hread, Except.error.injEq]
  refine ⟨fault, ?_⟩
  simp only [← fault]
  cases (word config i start w).value <;> simp

/-- A step to the north from the greatest coordinate leads to the least one. -/
example :
    let i := (CommandTable.ofEdits [.bindStandard]).interpreter
    (word {} i (fun _ => ⟨0, .maxValue⟩) ['F']).value = .error (.outOfBounds ⟨0, .minValue⟩ 3) := by
  rfl

end TurtleArt.Render
