import Mathlib.Data.List.Induction
import TurtleArt.CommandTable
import TurtleArt.Proofs.Symbol.Canonical

/-! What a table says of a symbol is what the latest step that mentions the symbol said, though
commands and movement flags are kept apart and every step touches both. Flags that follow from the
commands alone are the ones that are inferred where no flag is set, so inferring them changes
nothing in a table that was set up without an override. -/

namespace TurtleArt.CommandTable

variable {t : CommandTable}

/-! ### Inferred flags -/

theorem inferMovement_of_eq_empty (h : t.movement = ∅) :
    t.inferMovement = { t with movement := t.ops.keysWhere Command.isDrawing } := by
  rw [inferMovement, if_pos (SymbolSet.isEmpty_iff.mpr h)]

theorem inferMovement_of_ne_empty (h : t.movement ≠ ∅) : t.inferMovement = t := by
  rw [inferMovement, if_neg (mt SymbolSet.isEmpty_iff.mp h)]

theorem keysWhere_isDrawing_eq_empty_iff : t.ops.keysWhere Command.isDrawing = ∅ ↔
    ∀ c command, t.ops.get? c = some command → command.isDrawing = false := by
  simp only [SymbolSet.eq_empty_iff, SymbolMap.mem_keysWhere, not_exists, not_and,
    Bool.not_eq_true]

theorem inferMovement_eq_self_iff : t.inferMovement = t ↔
    t.movement ≠ ∅ ∨ ∀ c command, t.ops.get? c = some command → command.isDrawing = false := by
  rw [← keysWhere_isDrawing_eq_empty_iff]
  by_cases h : t.movement = ∅
  · obtain ⟨ops, movement⟩ := t
    obtain rfl : movement = ∅ := h
    simp [inferMovement_of_eq_empty]
  · simp [inferMovement_of_ne_empty h, h]

theorem inferMovement_inferMovement (t : CommandTable) :
    t.inferMovement.inferMovement = t.inferMovement := by
  by_cases h : t.movement = ∅
  · rw [inferMovement_of_eq_empty h, inferMovement_eq_self_iff, ← keysWhere_isDrawing_eq_empty_iff]
    exact (Classical.em _).symm
  · rw [inferMovement_of_ne_empty h, inferMovement_of_ne_empty h]

theorem ops_inferMovement (t : CommandTable) : t.inferMovement.ops = t.ops := by
  by_cases h : t.movement = ∅
  · rw [inferMovement_of_eq_empty h]
  · rw [inferMovement_of_ne_empty h]

/-! ### One step -/

variable {c d : Char} {command : Command}

def Edit.command? (c : Char) : Edit → Option Command
  | .bind d command => if c = d then some command else none
  | .setMovement .. => none
  | .bindStandard => standard.lookup c

def Edit.flag? (c : Char) : Edit → Option Bool
  | .bind d command => if c = d then some command.isDrawing else none
  | .setMovement d flag => if c = d then some flag else none
  | .bindStandard => (standard.lookup c).map Command.isDrawing

theorem contains_setMovement (t : CommandTable) (d : Char) (flag : Bool) (c : Char) :
    (t.setMovement d flag).movement.contains c =
      if c = d then flag else t.movement.contains c := by
  rw [Bool.eq_iff_iff, setMovement, SymbolSet.contains_iff]
  by_cases h : c = d
  · cases flag <;> simp [h]
  · cases flag <;> simp [h]

theorem get?_bind (t : CommandTable) (d : Char) (command : Command) (c : Char) :
    (t.bind d command).ops.get? c = if c = d then some command else t.ops.get? c :=
  SymbolMap.get?_insert ..

theorem contains_bind (t : CommandTable) (d : Char) (command : Command) (c : Char) :
    (t.bind d command).movement.contains c =
      if c = d then command.isDrawing else t.movement.contains c :=
  contains_setMovement ..

/-- Where no symbol is bound twice, the order of the bindings does not matter. -/
theorem bindAll_of_nodup {bindings : List (Char × Command)}
    (nodup : (bindings.map Prod.fst).Nodup) (t : CommandTable) (c : Char) :
    (t.bindAll bindings).ops.get? c = (bindings.lookup c).or (t.ops.get? c) ∧
      (t.bindAll bindings).movement.contains c =
        ((bindings.lookup c).map Command.isDrawing).getD (t.movement.contains c) := by
  induction bindings generalizing t with
  | nil => exact ⟨rfl, rfl⟩
  | cons binding bindings ih =>
    obtain ⟨d, command⟩ := binding
    rw [List.map_cons, List.nodup_cons] at nodup
    obtain ⟨commands, flags⟩ := ih nodup.2 (t.bind d command)
    change ((t.bind d command).bindAll bindings).ops.get? c = _ ∧
      ((t.bind d command).bindAll bindings).movement.contains c = _
    rw [commands, flags, get?_bind, contains_bind]
    by_cases h : c = d
    · subst h
      have later : bindings.lookup c = none := by
        rw [List.lookup_eq_none_iff]
        intro binding hbinding
        have other : c ≠ binding.1 := by
          rintro rfl
          exact nodup.1 (List.mem_map.mpr ⟨binding, hbinding, rfl⟩)
        simpa using other
      simp [later]
    · simp [h, List.lookup_cons, beq_false_of_ne h]

theorem get?_edit (t : CommandTable) (e : Edit) (c : Char) :
    (t.edit e).ops.get? c = (e.command? c).or (t.ops.get? c) := by
  cases e with
  | bind d command =>
    rw [edit, get?_bind, Edit.command?]
    split <;> rfl
  | setMovement d flag => rfl
  | bindStandard => exact (bindAll_of_nodup (by decide) t c).1

theorem contains_edit (t : CommandTable) (e : Edit) (c : Char) :
    (t.edit e).movement.contains c = (e.flag? c).getD (t.movement.contains c) := by
  cases e with
  | bind d command =>
    rw [edit, contains_bind, Edit.flag?]
    split <;> rfl
  | setMovement d flag =>
    rw [edit, contains_setMovement, Edit.flag?]
    split <;> rfl
  | bindStandard => exact (bindAll_of_nodup (by decide) t c).2

theorem Edit.flag?_eq_map {e : Edit} (h : ∀ d flag, e ≠ .setMovement d flag) (c : Char) :
    e.flag? c = (e.command? c).map Command.isDrawing := by
  cases e with
  | bind d command =>
    rw [flag?, command?]
    split <;> rfl
  | setMovement d flag => exact absurd rfl (h d flag)
  | bindStandard => rfl

/-! ### All steps -/

/-- What the latest step has to tell that tells anything. -/
def latest? {α : Type} (tell? : Edit → Option α) (edits : List Edit) : Option α :=
  edits.reverse.findSome? tell?

theorem latest?_concat {α : Type} (tell? : Edit → Option α) (edits : List Edit) (e : Edit) :
    latest? tell? (edits ++ [e]) = (tell? e).or (latest? tell? edits) := by
  rw [latest?, List.reverse_concat, List.findSome?_cons]
  cases tell? e <;> rfl

theorem ofEdits_concat (edits : List Edit) (e : Edit) :
    ofEdits (edits ++ [e]) = (ofEdits edits).edit e := by
  rw [ofEdits, List.foldl_append]
  rfl

theorem get?_ofEdits (edits : List Edit) (c : Char) :
    (ofEdits edits).ops.get? c = latest? (Edit.command? c) edits := by
  induction edits using List.reverseRecOn with
  | nil => rfl
  | append_singleton edits e ih => rw [ofEdits_concat, get?_edit, ih, latest?_concat]

theorem contains_ofEdits (edits : List Edit) (c : Char) :
    (ofEdits edits).movement.contains c = (latest? (Edit.flag? c) edits).getD false := by
  induction edits using List.reverseRecOn with
  | nil => rfl
  | append_singleton edits e ih =>
    rw [ofEdits_concat, contains_edit, ih, latest?_concat]
    cases e.flag? c <;> rfl

theorem latest?_flag? {edits : List Edit} (h : ∀ d flag, .setMovement d flag ∉ edits) (c : Char) :
    latest? (Edit.flag? c) edits = (latest? (Edit.command? c) edits).map Command.isDrawing := by
  induction edits using List.reverseRecOn with
  | nil => rfl
  | append_singleton edits e ih =>
    have before := ih fun d flag hmem => h d flag (List.mem_append_left _ hmem)
    have last : ∀ d flag, e ≠ .setMovement d flag := by
      rintro d flag rfl
      exact h d flag (by simp)
    rw [latest?_concat, latest?_concat, before, Edit.flag?_eq_map last, Option.map_or]

theorem contains_ofEdits_iff {edits : List Edit} (h : ∀ d flag, .setMovement d flag ∉ edits)
    (c : Char) : (ofEdits edits).movement.contains c = true ↔
      ∃ command, (ofEdits edits).ops.get? c = some command ∧ command.isDrawing = true := by
  rw [contains_ofEdits, latest?_flag? h, ← get?_ofEdits]
  cases (ofEdits edits).ops.get? c <;> simp

theorem inferMovement_ofEdits {edits : List Edit} (h : ∀ d flag, .setMovement d flag ∉ edits) :
    (ofEdits edits).inferMovement = ofEdits edits := by
  rw [inferMovement_eq_self_iff]
  by_cases hflags : (ofEdits edits).movement = ∅
  · right
    intro c command hcommand
    by_contra hdraws
    rw [Bool.not_eq_false] at hdraws
    have flagged := (contains_ofEdits_iff h c).mpr ⟨command, hcommand, hdraws⟩
    rw [SymbolSet.contains_iff, hflags] at flagged
    exact SymbolSet.not_mem_empty flagged
  · exact .inl hflags

theorem contains_inferMovement_iff (h : t.movement = ∅) (c : Char) :
    t.inferMovement.movement.contains c = true ↔
      ∃ command, t.ops.get? c = some command ∧ command.isDrawing = true := by
  rw [inferMovement_of_eq_empty h, SymbolSet.contains_iff, SymbolMap.mem_keysWhere]

theorem exists_isDrawing_iff {command? : Option Command} :
    (∃ command, command? = some command ∧ command.isDrawing = true) ↔
      command? = some .drawLeaf ∨ command? = some .drawLine := by
  constructor
  · rintro ⟨command, rfl, hdraws⟩
    cases command with
    | drawLeaf => exact .inl rfl
    | drawLine => exact .inr rfl
    | _ => cases hdraws
  · rintro (rfl | rfl)
    · exact ⟨_, rfl, rfl⟩
    · exact ⟨_, rfl, rfl⟩

/-- A table that is set up step by step binds a symbol as the latest step did that bound it, and
flags it as the latest step did that mentioned it at all. As long as flags are not set by hand they
mark the symbols that draw. Inferring flags leaves every command as it is, changes nothing when done
again, where a flag is set, or where none was ever set by hand, and else flags what draws. -/
theorem interpreter_ofEdits (edits : List Edit) (t : CommandTable) :
    (∀ c, (ofEdits edits).interpreter.command? c = latest? (Edit.command? c) edits ∧
      (ofEdits edits).interpreter.isMovement c = (latest? (Edit.flag? c) edits).getD false) ∧
    ((∀ c flag, .setMovement c flag ∉ edits) →
      (∀ c, (ofEdits edits).interpreter.isMovement c = true ↔
        (ofEdits edits).interpreter.command? c = some .drawLeaf ∨
          (ofEdits edits).interpreter.command? c = some .drawLine) ∧
      (ofEdits edits).inferMovement = ofEdits edits) ∧
    t.inferMovement.interpreter.command? = t.interpreter.command? ∧
    t.inferMovement.inferMovement = t.inferMovement ∧
    (t.movement ≠ ∅ → t.inferMovement = t) ∧
    (t.movement = ∅ → ∀ c, t.inferMovement.interpreter.isMovement c = true ↔
      t.interpreter.command? c = some .drawLeaf ∨ t.interpreter.command? c = some .drawLine) := by
  refine ⟨fun c => ⟨get?_ofEdits edits c, contains_ofEdits edits c⟩, ?_, ?_,
    inferMovement_inferMovement t, inferMovement_of_ne_empty, ?_⟩
  · intro h
    refine ⟨fun c => ?_, inferMovement_ofEdits h⟩
    rw [← exists_isDrawing_iff]
    exact contains_ofEdits_iff h c
  · change t.inferMovement.ops.get? = t.ops.get?
    rw [ops_inferMovement]
  · intro h c
    rw [← exists_isDrawing_iff]
    exact contains_inferMovement_iff h c

/-- The customary alphabet with its line made a turn and a tip put in: no flag is set by hand, and
the turn has lost its own. Beside it a table in which flags are missing. -/
theorem interpreter_ofEdits_of_rebound :
    let edits : List Edit := [.bindStandard, .bind 'F' .turnLeft, .bind 'G' .drawLeaf]
    let bare : CommandTable := { ops := .ofList [('F', .drawLine)] }
    (∀ c flag, .setMovement c flag ∉ edits) ∧ (ofEdits edits).interpreter.isMovement 'F' = false ∧
      (ofEdits edits).interpreter.isMovement 'G' = true ∧
      (ofEdits edits).movement ≠ ∅ ∧ (ofEdits edits).inferMovement = ofEdits edits ∧
      bare.movement = ∅ ∧ bare.inferMovement.interpreter.isMovement 'F' = true := by
  intro edits bare
  have byHand : ∀ c flag, .setMovement c flag ∉ edits := by simp [edits]
  have flagged : (ofEdits edits).movement ≠ ∅ := by decide
  obtain ⟨replayed, followed, -, -, kept, -⟩ := interpreter_ofEdits edits (ofEdits edits)
  obtain ⟨-, -, -, -, -, inferred⟩ := interpreter_ofEdits edits bare
  refine ⟨byHand, ?_, ?_, flagged, kept flagged, rfl, (inferred rfl 'F').mpr (.inr rfl)⟩
  · exact (replayed 'F').2
  · exact ((followed byHand).1 'G').mpr (.inl (replayed 'G').1)

end TurtleArt.CommandTable
