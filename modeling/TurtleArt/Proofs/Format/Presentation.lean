import TurtleArt.Format.Decode
import TurtleArt.Format.Encode
import TurtleArt.Proofs.Format.RoundTrip
import TurtleArt.Proofs.Json.Rearrangement
import TurtleArt.Proofs.Json.Recognition

/-! A definition is read alike from all texts that say the same: however they place blanks and
order members, whatever they say under other names, and whether or not they spell out what is
empty. -/

namespace TurtleArt

open Json Decoder

def StartPosition.Rearranged : Value → Value → Prop :=
  VariantEdit "fixed" (RecordEdit [.plain "x", .plain "y"])

def Grammar.Rearranged : Value → Value → Prop :=
  RecordEdit [.plain "axiom", .optional "rules" (.object []), .optional "scaffolding" (.array [])]

def CommandTable.Rearranged : Value → Value → Prop :=
  RecordEdit [.plain "ops", .optional "movement" (.array [])]

def Definition.Rearranged : Value → Value → Prop :=
  RecordEdit
    [.plain "name", .within "grammar" Grammar.Rearranged,
      .within "commands" CommandTable.Rearranged, .within "start" StartPosition.Rearranged]

theorem StartPosition.decoder_tolerates : decoder.Tolerates Rearranged := by
  have body : fixedDecoder.Tolerates (RecordEdit [.plain "x", .plain "y"]) :=
    Fields.Suited.record_tolerates (.cons .plain <| .cons .plain .nil) (by decide) _ _
  exact Choice.tolerates_variantEdit rfl body

theorem Grammar.decoder_tolerates : decoder.Tolerates Rearranged :=
  Fields.Suited.record_tolerates
    (.cons .plain <| .cons (.optional rfl) <| .cons (.optional rfl) .nil) (by decide) _ _

theorem CommandTable.decoder_tolerates : decoder.Tolerates Rearranged :=
  Fields.Suited.record_tolerates (.cons .plain <| .cons (.optional rfl) .nil) (by decide) _ _

namespace Definition

theorem decoder_tolerates : decoder.Tolerates Rearranged :=
  Fields.Suited.record_tolerates
    (.cons .plain <| .cons (.within Grammar.decoder_tolerates) <|
      .cons (.within CommandTable.decoder_tolerates) <|
        .cons (.within StartPosition.decoder_tolerates) .nil) (by decide) _ _

/-- A text that says the same as another: its value is a rearrangement of the other's, and may be
spelled in any way. -/
def Rephrases (text text' : String) : Prop :=
  ∃ v v' : Value, v.Spelled text.toList ∧ Relation.ReflTransGen Rearranged v v' ∧
    v'.Spelled text'.toList

/-- The texts that are read as a definition are texts of a JSON value, and what is read from one is
read from every other that says the same. The order of members does not matter, nor do blanks,
members of unknown names, and empty rules, scaffolding and movement symbols. -/
theorem ofJson_rephrased {text : String} {d : Definition} (h : ofJson text = .ok d) :
    (∃ v : Value, v.Spelled text.toList) ∧
      ∀ text', Rephrases text text' → ofJson text' = .ok d := by
  obtain ⟨e, read, rfl⟩ := ofJson_eq_ok h
  obtain ⟨v, spelled, complete⟩ := Decoder.read_eq_ok_iff.mp read
  refine ⟨⟨v, spelled⟩, ?_⟩
  rintro text' ⟨w, w', hw, rearranged, hw'⟩
  obtain rfl : v = w := spelled.unique hw
  have read' : decoder.read text' = .ok e :=
    Decoder.read_eq_ok_iff.mpr ⟨w', hw', decoder_tolerates.reflTransGen _ _ _ rearranged complete⟩
  rw [ofJson, read']
  rfl

set_option maxRecDepth 4000 in
/-- The members in another order, an empty map left out, an empty list put in, a member of no
meaning within the start, and blanks. -/
theorem ofJson_rephrased_of_text : ∃ d,
    ofJson ("\x7b\"name\":\"\",\"grammar\":\x7b\"axiom\":\"F\",\"rules\":\x7b\x7d\x7d," ++
      "\"commands\":\x7b\"ops\":\x7b\x7d\x7d," ++
      "\"start\":\x7b\"fixed\":\x7b\"x\":1,\"y\":2\x7d\x7d\x7d") = .ok d ∧
    ofJson (" \x7b\"start\":\x7b\"fixed\":\x7b\"x\":1,\"z\":null,\"y\":2\x7d\x7d,\n" ++
      "\"commands\":\x7b\"movement\":[],\"ops\":\x7b\x7d\x7d," ++
      "\"grammar\": \x7b\"axiom\":\"F\"\x7d,\"name\":\"\"\x7d") = .ok d := by
  have read : ofJson ("\x7b\"name\":\"\",\"grammar\":\x7b\"axiom\":\"F\",\"rules\":\x7b\x7d\x7d," ++
      "\"commands\":\x7b\"ops\":\x7b\x7d\x7d," ++
      "\"start\":\x7b\"fixed\":\x7b\"x\":1,\"y\":2\x7d\x7d\x7d") =
      .ok { name := "", grammar := { start := ['F'] }, commands := ∅, start := .fixed 1 2 } := by
    decide +kernel
  let field (name : String) (v : Value) : Member := (.ofChars name.toList, v)
  let x := field "x" (.ofInt 1)
  let y := field "y" (.ofInt 2)
  let start := field "axiom" (.ofWord ['F'])
  let ops := field "ops" (.object [])
  have grammar : Grammar.Rearranged (.object [start, field "rules" (.object [])])
      (.object [start]) :=
    .members <| @MembersEdit.drop _ [start] [] _ (.optional "rules" (.object [])) (by simp)
      (Text.chars?_ofChars _) rfl
  have commands : CommandTable.Rearranged (.object [ops])
      (.object [field "movement" (.array []), ops]) :=
    .members <| @MembersEdit.add _ [] [ops] _ (.optional "movement" (.array [])) (by simp)
      (Text.chars?_ofChars _) rfl (by simp [ops, field, Member.IsNamed, Part.optional])
  have body : RecordEdit [.plain "x", .plain "y"] (.object [x, y])
      (.object [x, field "z" .null, y]) :=
    .members <| @MembersEdit.insert _ [x] [y] _ ⟨"z", Text.chars?_ofChars _⟩
      (by simp [field, Member.IsNamed, Part.plain])
  have place : StartPosition.Rearranged (.object [field "fixed" (.object [x, y])])
      (.object [field "fixed" (.object [x, field "z" .null, y])]) :=
    .body (Text.chars?_ofChars _) body
  let name := field "name" (.ofString "")
  have chain : Relation.ReflTransGen Rearranged
      (.object [name, field "grammar" (.object [start, field "rules" (.object [])]),
        field "commands" (.object [ops]), field "start" (.object [field "fixed" (.object [x, y])])])
      (.object [field "start" (.object [field "fixed" (.object [x, field "z" .null, y])]),
        field "commands" (.object [field "movement" (.array []), ops]),
        field "grammar" (.object [start]), name]) :=
    .head (.members <| @MembersEdit.change _ [name] [_, _] _ _ _
      (.within "grammar" Grammar.Rearranged) (by simp) (Text.chars?_ofChars _) grammar) <|
    .head (.members <| @MembersEdit.change _ [name, _] [_] _ _ _
      (.within "commands" CommandTable.Rearranged) (by simp) (Text.chars?_ofChars _) commands) <|
    .head (.members <| @MembersEdit.change _ [name, _, _] [] _ _ _
      (.within "start" StartPosition.Rearranged) (by simp) (Text.chars?_ofChars _) place) <|
    .single (.members <| .reorder (List.reverse_perm _).symm)
  refine ⟨_, read, (ofJson_rephrased read).2 _
    ⟨_, _, scan_eq_complete_iff.mp ?_, chain, scan_eq_complete_iff.mp ?_⟩⟩
  all_goals
    simp only [String.toList_append, String.reduceToList, List.cons_append, List.nil_append]
    rfl

end Definition
end TurtleArt
