import TurtleArt.Proofs.Format.RoundTrip
import TurtleArt.Proofs.Json.Patience

/-! The text of a definition, cut anywhere, is refused for the one reason that it ends too early. -/

namespace TurtleArt

open Json Decoder

theorem SymbolMap.decoder_awaits {α : Type} {d : Decoder α} {encode : α → Value}
    (undoes : d.Undoes encode) (h : ∀ a, d.Awaits (encode a)) (m : SymbolMap α) :
    (Decoder.symbolMap d).Awaits (m.toValue encode) := by
  refine symbolMap_awaits ((SymbolMap.decoder_undoes undoes).complete m) ?_ ?_
  · rw [List.forall_mem_map]
    exact fun entry _ => ⟨[entry.1], rfl⟩
  · rw [List.forall_mem_map]
    exact fun entry _ => h entry.2

theorem Command.decoder_awaits (c : Command) : Command.decoder.Awaits c.toValue :=
  Choice.awaits_ofString c.lookup_name

namespace StartPosition

theorem fixedDecoder_awaits (x y : Int32) :
    fixedDecoder.Awaits (.ofFields [("x", .ofInt x.toInt), ("y", .ofInt y.toInt)]) := by
  refine Fields.record_awaits (Fields.record_ofFields (spells_fixed x y) (by decide) _ _) ?_
  simp only [List.forall_mem_cons]
  exact ⟨.here (int32_awaits x), .there (.here (int32_awaits y)) (by decide), by simp⟩

theorem decoder_awaits (p : StartPosition) : decoder.Awaits p.toValue := by
  cases p with
  | middleBottom => exact Choice.awaits_ofString (a := middleBottom) rfl
  | central => exact Choice.awaits_ofString (a := central) rfl
  | bottomRight => exact Choice.awaits_ofString (a := bottomRight) rfl
  | fixed x y =>
    have body : (Payload.body fixedDecoder).decoder.Awaits _ := fixedDecoder_awaits x y
    exact Choice.awaits_ofFields rfl body

end StartPosition

theorem Grammar.decoder_awaits (g : Grammar) : Grammar.decoder.Awaits g.toValue := by
  have start : Decoder.word.Awaits (.ofWord g.start) := (string_awaits g.start).map _
  have rules : (Decoder.symbolMap .word).Awaits (g.rules.toValue .ofWord) :=
    SymbolMap.decoder_awaits word_undoes (fun w => (string_awaits w).map _) g.rules
  have scaffolding : Decoder.symbolSet.Awaits g.scaffolding.toValue :=
    symbolSet_awaits g.scaffolding.toList
  refine Fields.record_awaits (Grammar.decoder_undoes.complete g) ?_
  simp only [List.forall_mem_cons]
  exact ⟨.here start, .there (.here rules) (by decide),
    .there (.there (.here scaffolding) (by decide)) (by decide), by simp⟩

theorem CommandTable.decoder_awaits (t : CommandTable) :
    CommandTable.decoder.Awaits t.toValue := by
  have ops : (Decoder.symbolMap Command.decoder).Awaits (t.ops.toValue Command.toValue) :=
    SymbolMap.decoder_awaits Command.decoder_undoes Command.decoder_awaits t.ops
  have movement : Decoder.symbolSet.Awaits t.movement.toValue :=
    symbolSet_awaits t.movement.toList
  refine Fields.record_awaits (CommandTable.decoder_undoes.complete t) ?_
  simp only [List.forall_mem_cons]
  exact ⟨.here ops, .there (.here movement) (by decide), by simp⟩

namespace Definition

theorem decoder_awaits (d : Definition) : decoder.Awaits d.toValue := by
  have name : Decoder.string.Awaits (.ofString d.name) := string_awaits d.name.toList
  refine Fields.record_awaits (decoder_undoes.complete d) ?_
  simp only [List.forall_mem_cons]
  exact ⟨.here name, .there (.here d.grammar.decoder_awaits) (by decide),
    .there (.there (.here d.commands.decoder_awaits) (by decide)) (by decide),
    .there (.there (.there (.here d.start.decoder_awaits) (by decide)) (by decide)) (by decide),
    by simp⟩

/-- The text of a definition ends with a brace, which is missing wherever the text is cut. -/
theorem not_blanks_of_cut {d : Definition} {w rest : List Char} (h : w ++ rest = d.toJson.toList)
    (proper : rest ≠ []) : ¬Blanks rest := by
  obtain ⟨body, hbody⟩ : ∃ body, d.toJson.toList = body ++ ['\x7d'] := by
    rw [toJson, Value.pretty, String.toList_ofList]
    exact ⟨_, rfl⟩
  obtain ⟨front, c, rfl⟩ := (List.eq_nil_or_concat rest).resolve_left proper
  have brace : c = '\x7d' := by
    rw [hbody, List.concat_eq_append, ← List.append_assoc] at h
    exact List.singleton_inj.mp (List.append_inj' h rfl).2
  intro blanks
  have blank : isSpace c = true := blanks c (by simp)
  rw [brace] at blank
  cases blank

/-- A text that is a proper beginning of what is written for a definition is refused, for ending too
early and for nothing else. -/
theorem ofJson_truncated {d : Definition} {text : String} (h : text.toList <+: d.toJson.toList)
    (proper : text ≠ d.toJson) : ofJson text = .error (.breach .truncated) := by
  obtain ⟨rest, hrest⟩ := h
  have more : rest ≠ [] := by
    rintro rfl
    rw [List.append_nil] at hrest
    exact proper (String.toList_inj.mp hrest)
  have spelled : d.toValue.Spelled (text.toList ++ rest) := by
    rw [hrest, toJson, Value.pretty, String.toList_ofList]
    exact (decoder_undoes.plain d).spelled Layout.blank_pretty 0
  obtain ⟨f, scanned, cut⟩ := exists_cut spelled rfl (not_blanks_of_cut hrest more)
  have refused : decoder.read text = .error (.breach .truncated) := by
    rw [Decoder.read, scanned]
    exact congrArg Except.error (d.decoder_awaits.cut f cut)
  rw [ofJson, refused]
  rfl

/-- Cut behind the first digit of a negative number, where the digits left are a number. -/
theorem ofJson_truncated_of_number :
    let d : Definition :=
      { name := "\x01", grammar := { start := ['F'] }, commands := ∅, start := .fixed (-12) 7 }
    let text : String := "\x7b\n  \"name\": \"\\u0001\",\n  \"grammar\": \x7b\n    \"axiom\": \"F\",\n" ++
      "    \"rules\": \x7b\x7d,\n    \"scaffolding\": []\n  \x7d,\n  \"commands\": \x7b\n" ++
      "    \"ops\": \x7b\x7d,\n    \"movement\": []\n  \x7d,\n  \"start\": \x7b\n" ++
      "    \"fixed\": \x7b\n      \"x\": -1"
    text.toList <+: d.toJson.toList ∧ text ≠ d.toJson ∧
      ofJson text = .error (.breach .truncated) := by
  intro d text
  let rest := "2,\n      \"y\": 7\n    \x7d\n  \x7d\n\x7d"
  have whole : d.toJson.toList = text.toList ++ rest.toList := by
    rw [toJson, Value.pretty, String.toList_ofList]
    simp only [d, text, rest]
    decide +kernel
  have more : rest.toList ≠ [] := by decide +kernel
  clear_value d text rest
  have begins : text.toList <+: d.toJson.toList := by
    rw [whole]
    exact List.prefix_append ..
  have proper : text ≠ d.toJson := by
    intro same
    rw [← same] at whole
    exact more (List.self_eq_append_right.mp whole)
  exact ⟨begins, proper, ofJson_truncated begins proper⟩

end Definition
end TurtleArt
