import TurtleArt.Format.Decode
import TurtleArt.Format.Encode
import TurtleArt.Proofs.CommandTable
import TurtleArt.Proofs.Json.Lawful

/-! A definition is read back from the text that is written for it, whatever its symbols are. -/

namespace TurtleArt

open Json Decoder

theorem SymbolSet.decoder_undoes : Decoder.symbolSet.Undoes SymbolSet.toValue where
  plain s := (list_undoes char_undoes).plain s.toList
  complete s := by
    have read := (list_undoes char_undoes).complete s.toList
    change symbolSet.complete (.array (s.toList.map fun c => .ofWord [c])) = .ok s
    rw [symbolSet, complete_map _ read, SymbolSet.ofList_toList]

theorem SymbolMap.decoder_undoes {α : Type} {d : Decoder α} {encode : α → Value}
    (h : d.Undoes encode) : (Decoder.symbolMap d).Undoes (SymbolMap.toValue encode) where
  plain m := by
    apply Value.Plain.object
    · intro member hmember
      obtain ⟨entry, -, rfl⟩ := List.mem_map.mp hmember
      exact ⟨[entry.1], rfl⟩
    · intro member hmember
      obtain ⟨entry, -, rfl⟩ := List.mem_map.mp hmember
      exact h.plain entry.2
  complete m := by
    have step (m : SymbolMap α) (entry : Char × α) :
        members.step (fun m key => do
          let c ← singleton (← key.read)
          return d.map (m.insert c ·)) m (.ofChars [entry.1], encode entry.2) =
            pure (m.insert entry.1 entry.2) := by
      simp only [members.step, Text.read_ofChars, bind, Except.bind, singleton_ofList]
      exact complete_map _ (h.complete entry.2)
    change (m.toList.map fun entry => (Text.ofChars [entry.1], encode entry.2)).foldlM _ ∅ =
      Except.ok m
    rw [List.foldlM_map]
    simp only [step, List.foldlM_pure]
    exact congrArg Except.ok m.ofList_toList

theorem Command.lookup_name (c : Command) :
    (Choice.ofNames (Command.all.map fun c => (c.name, c))).lookup c.name = some (.unit c) := by
  cases c <;> rfl

theorem Command.decoder_undoes : Command.decoder.Undoes Command.toValue where
  plain c := Value.plain_ofString c.name
  complete c := Choice.complete_ofString (.unit c) c.lookup_name

namespace StartPosition

theorem spells_fixed (x y : Int32) :
    Fields.Spells (.cons "x" .int32 none <| .cons "y" .int32 none .nil) (x, y, ())
      [("x", .ofInt x.toInt), ("y", .ofInt y.toInt)] :=
  .cons int32_undoes <| .cons int32_undoes .nil

theorem decoder_undoes : StartPosition.decoder.Undoes StartPosition.toValue where
  plain p := by
    cases p with
    | fixed x y =>
      apply Value.plain_ofFields
      intro m hm
      obtain rfl := List.mem_singleton.mp hm
      exact (spells_fixed x y).plain
    | _ => exact Value.plain_ofString _
  complete p := by
    cases p with
    | fixed x y =>
      have body : fixedDecoder.complete
          (.ofFields [("x", .ofInt x.toInt), ("y", .ofInt y.toInt)]) = .ok (fixed x y) :=
        Fields.record_ofFields (spells_fixed x y) (by decide) _ _
      exact (Choice.complete_ofFields (.body fixedDecoder) rfl _).trans body
    | middleBottom => exact Choice.complete_ofString (.unit middleBottom) rfl
    | central => exact Choice.complete_ofString (.unit central) rfl
    | bottomRight => exact Choice.complete_ofString (.unit bottomRight) rfl

end StartPosition

theorem Grammar.decoder_undoes : Grammar.decoder.Undoes Grammar.toValue := by
  apply Fields.record_undoes (by decide)
  intro g
  exact ⟨(g.start, g.rules, g.scaffolding, ()), _, .cons word_undoes <|
    .cons (SymbolMap.decoder_undoes word_undoes) <| .cons SymbolSet.decoder_undoes .nil, rfl, rfl⟩

theorem CommandTable.decoder_undoes : CommandTable.decoder.Undoes CommandTable.toValue := by
  apply Fields.record_undoes (by decide)
  intro t
  exact ⟨(t.ops, t.movement, ()), _, .cons (SymbolMap.decoder_undoes Command.decoder_undoes) <|
    .cons SymbolSet.decoder_undoes .nil, rfl, rfl⟩

namespace Definition

theorem decoder_undoes : Definition.decoder.Undoes Definition.toValue := by
  apply Fields.record_undoes (by decide)
  intro d
  exact ⟨(d.name, d.grammar, d.commands, d.start, ()), _, .cons string_undoes <|
    .cons Grammar.decoder_undoes <| .cons CommandTable.decoder_undoes <|
    .cons StartPosition.decoder_undoes .nil, rfl, rfl⟩

theorem inferMovement_eq_self_iff {d : Definition} :
    d.inferMovement = d ↔ d.commands.inferMovement = d.commands := by
  obtain ⟨name, grammar, commands, start⟩ := d
  simp [inferMovement]

theorem ofJson_eq_ok {text : String} {d : Definition} (h : ofJson text = .ok d) :
    ∃ e : Definition, decoder.read text = .ok e ∧ e.inferMovement = d := by
  rw [ofJson] at h
  cases hread : decoder.read text with
  | error r => simp [hread, Functor.map, Except.map] at h
  | ok e =>
    rw [hread] at h
    exact ⟨e, rfl, Except.ok.inj h⟩

/-- What is written for a definition is read back as that definition, and with its movement flags
inferred as `ofJson` does. Only flags that are missing for a drawing symbol make a difference, and
a definition that was itself read from a text has none missing. -/
theorem ofJson_toJson (d : Definition) :
    decoder.read d.toJson = .ok d ∧ ofJson d.toJson = .ok d.inferMovement ∧
      (d.inferMovement = d ↔ d.commands.movement ≠ ∅ ∨
        ∀ c command, d.commands.ops.get? c = some command → command.isDrawing = false) ∧
      ∀ text, ofJson text = .ok d → ofJson d.toJson = .ok d := by
  have read : decoder.read d.toJson = .ok d := decoder_undoes.read_pretty d
  have inferred : ofJson d.toJson = .ok d.inferMovement := by
    rw [ofJson, read]
    rfl
  refine ⟨read, inferred, ?_, ?_⟩
  · rw [inferMovement_eq_self_iff, CommandTable.inferMovement_eq_self_iff]
  · intro text h
    obtain ⟨e, -, rfl⟩ := ofJson_eq_ok h
    rw [inferred, inferMovement_eq_self_iff.mpr (CommandTable.inferMovement_inferMovement _)]

/-- A text with escapes, without movement flags, and with the place of the start as an array. -/
theorem ofJson_toJson_of_text :
    ∃ text d, ofJson text = .ok d ∧ d.start = .fixed (-3) 7 ∧ ofJson d.toJson = .ok d := by
  have read : ofJson ("\x7b\"name\":\"\\u0001\\\"\",\"grammar\":\x7b\"axiom\":\"F\"\x7d," ++
      "\"commands\":\x7b\"ops\":\x7b\"F\":\"draw_line\"\x7d\x7d," ++
      "\"start\":\x7b\"fixed\":[-3,7]\x7d\x7d") =
    .ok { name := "\x01\"", grammar := { start := ['F'] },
          commands := .ofEdits [.bind 'F' .drawLine], start := .fixed (-3) 7 } := by
    decide +kernel
  exact ⟨_, _, read, rfl, (ofJson_toJson _).2.2.2 _ read⟩

end Definition
end TurtleArt
