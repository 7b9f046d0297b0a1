import TurtleArt.Interpreter

/-! Reading a word as commands. Either every symbol has a command, or the first that has none is
reported with its place in the word. -/

namespace TurtleArt.Interpreter

variable {i : Interpreter} {w : Word} {commands : List Command} {f : Fault}

def Reads (i : Interpreter) (w : Word) (commands : List Command) : Prop :=
  w.map i.command? = commands.map some

def readFrom (i : Interpreter) (index : Nat) : Word → Except Fault (List Command)
  | [] => .ok []
  | c :: w =>
    match i.command? c with
    | some command => (i.readFrom (index + 1) w).map (command :: ·)
    | none => .error (.unknownSymbol c index)

theorem instructions_eq_readFrom (i : Interpreter) (w : Word) :
    i.instructions w = i.readFrom 0 w := by
  unfold instructions
  -- The index grows with every symbol, so the claim is made for all of them.
  generalize 0 = index
  induction w generalizing index with
  | nil => rfl
  | cons c w ih =>
    rw [List.zipIdx_cons, List.mapM_cons, ih, readFrom]
    cases hc : i.command? c with
    | none => simp only [hc]; rfl
    | some command =>
      simp only [hc]
      cases i.readFrom (index + 1) w <;> rfl

theorem Reads.length_eq (h : i.Reads w commands) : commands.length = w.length := by
  simpa using (congrArg List.length h).symm

theorem Reads.cons {c : Char} {command : Command} (hc : i.command? c = some command)
    (h : i.Reads w commands) : i.Reads (c :: w) (command :: commands) := by
  simpa [Reads, hc] using h

theorem Reads.append {u v : Word} {before after : List Command} (hu : i.Reads u before)
    (hv : i.Reads v after) : i.Reads (u ++ v) (before ++ after) := by
  rw [Reads, List.map_append, List.map_append, hu, hv]

theorem Reads.unique {commands' : List Command} (h : i.Reads w commands)
    (h' : i.Reads w commands') : commands = commands' :=
  (List.map_inj_right fun _ _ => Option.some.inj).mp (h.symm.trans h')

theorem Reads.exists_symbol {before after : List Command} {command : Command}
    (h : i.Reads w (before ++ command :: after)) :
    ∃ u c v, w = u ++ c :: v ∧ i.Reads u before ∧ i.command? c = some command := by
  rw [Reads, List.map_append, List.map_cons, List.map_eq_append_iff] at h
  obtain ⟨u, rest, rfl, hu, hrest⟩ := h
  obtain ⟨c, v, rfl, hc, -⟩ := List.map_eq_cons_iff.mp hrest
  exact ⟨u, c, v, rfl, hu, hc⟩

theorem Reads.exists_command {u v : Word} {c : Char} (h : i.Reads (u ++ c :: v) commands) :
    ∃ before command after, commands = before ++ command :: after ∧ i.Reads u before ∧
      i.command? c = some command := by
  rw [Reads, List.map_append, List.map_cons, eq_comm, List.map_eq_append_iff] at h
  obtain ⟨before, rest, rfl, hu, hrest⟩ := h
  obtain ⟨command, after, rfl, hc, -⟩ := List.map_eq_cons_iff.mp hrest
  exact ⟨before, command, after, rfl, hu.symm, hc.symm⟩

theorem reads_cons_iff {c : Char} :
    i.Reads (c :: w) commands ↔
      ∃ command rest, commands = command :: rest ∧ i.command? c = some command ∧
        i.Reads w rest := by
  constructor
  · intro h
    cases commands with
    | nil => cases h
    | cons command rest =>
      obtain ⟨hc, hrest⟩ := List.cons.inj h
      exact ⟨command, rest, rfl, hc, hrest⟩
  · rintro ⟨command, rest, rfl, hc, hrest⟩
    exact hrest.cons hc

theorem readFrom_eq_ok_iff (index : Nat) :
    i.readFrom index w = .ok commands ↔ i.Reads w commands := by
  induction w generalizing index commands with
  | nil =>
    cases commands <;> simp [readFrom, Reads]
  | cons c w ih =>
    rw [readFrom, reads_cons_iff]
    cases hc : i.command? c with
    | none => simp
    | some command =>
      simp only [Option.some.injEq, ← ih (index + 1)]
      cases i.readFrom (index + 1) w <;> simp [Except.map, eq_comm]

theorem readFrom_eq_error_iff (index : Nat) :
    i.readFrom index w = .error f ↔ ∃ u c v, w = u ++ c :: v ∧ (∀ d ∈ u, i.command? d ≠ none) ∧
      i.command? c = none ∧ f = .unknownSymbol c (index + u.length) := by
  induction w generalizing index with
  | nil => simp [readFrom]
  | cons c w ih =>
    rw [readFrom]
    cases hc : i.command? c with
    | none =>
      simp only [Except.error.injEq]
      constructor
      · rintro rfl
        exact ⟨[], c, w, rfl, by simp, hc, rfl⟩
      · rintro ⟨u, d, v, hw, known, hd, rfl⟩
        cases u with
        | nil =>
          obtain ⟨rfl, rfl⟩ := List.cons.inj hw
          rfl
        | cons e u =>
          obtain ⟨rfl, rfl⟩ := List.cons.inj hw
          exact absurd hc (known c (by simp))
    | some command =>
      have rest : (i.readFrom (index + 1) w).map (command :: ·) = .error f ↔
          i.readFrom (index + 1) w = .error f := by
        cases i.readFrom (index + 1) w <;> simp [Except.map]
      simp only [rest, ih]
      constructor
      · rintro ⟨u, d, v, rfl, known, hd, rfl⟩
        refine ⟨c :: u, d, v, rfl, ?_, hd, ?_⟩
        · intro e he
          rcases List.mem_cons.mp he with rfl | he
          · simp [hc]
          · exact known e he
        · rw [List.length_cons, Nat.add_right_comm, Nat.add_assoc]
      · rintro ⟨u, d, v, hw, known, hd, rfl⟩
        cases u with
        | nil =>
          obtain ⟨rfl, rfl⟩ := List.cons.inj hw
          simp [hc] at hd
        | cons e u =>
          obtain ⟨rfl, rfl⟩ := List.cons.inj hw
          refine ⟨u, d, v, rfl, fun e he => known e (List.mem_cons_of_mem _ he), hd, ?_⟩
          rw [List.length_cons, Nat.add_right_comm, Nat.add_assoc]

theorem instructions_eq_ok_iff : i.instructions w = .ok commands ↔ i.Reads w commands := by
  rw [instructions_eq_readFrom, readFrom_eq_ok_iff]

theorem instructions_eq_error_iff :
    i.instructions w = .error f ↔ ∃ u c v, w = u ++ c :: v ∧ (∀ d ∈ u, i.command? d ≠ none) ∧
      i.command? c = none ∧ f = .unknownSymbol c u.length := by
  rw [instructions_eq_readFrom, readFrom_eq_error_iff]
  simp only [Nat.zero_add]

end TurtleArt.Interpreter
