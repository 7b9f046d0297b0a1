import TurtleArt.Cli.Program
import TurtleArt.Proofs.Except
import TurtleArt.Proofs.Output.Framing
import TurtleArt.Proofs.Preset.BinaryTree
import TurtleArt.Proofs.Preset.DragonCurve
import TurtleArt.Proofs.Preset.KochCurve

/-! The outcome of an invocation: either every picture asked for is on the output, or none is and
the first error met is told. The stages a definition file goes through are ordered, so of all that
is wrong with a file only the earliest is reported. -/

namespace TurtleArt.Cli

open Render

theorem run_of_arts {i : Invocation} {readFile : String → Except IoError ByteArray}
    {pictures : List (Definition × Nat)} {arts : List String}
    (h : i.pictures readFile = .ok pictures)
    (drawn : List.Forall₂ (fun picture art => (definition {} picture.1 picture.2).value = .ok art)
      pictures arts) : i.run readFile = ⟨arts.flatMap Sink.frame, none⟩ := by
  have run : i.run readFile =
      ⟨(Sink.drawAll {} {} pictures).1.written, (Sink.drawAll {} {} pictures).2⟩ := by
    rw [Invocation.run, h]
  obtain ⟨written, done⟩ := Sink.drawAll_of_arts (s := {}) rfl rfl drawn
  rw [run, written, done]
  rfl

theorem run_of_gallery {i : Invocation} (h : i.source = .gallery)
    (readFile : String → Except IoError ByteArray) :
    ∃ dragon tree koch,
      (definition {} Preset.dragonCurve.definition 10).value = .ok dragon ∧
      (definition {} Preset.binaryTree.definition 5).value = .ok tree ∧
      (definition {} Preset.kochCurve.definition 3).value = .ok koch ∧
      i.run readFile = ⟨Sink.frame dragon ++ Sink.frame tree ++ Sink.frame koch, none⟩ := by
  obtain ⟨dragon, hdragon⟩ := DragonCurve.exists_art_definition 10 (by decide)
  obtain ⟨treeLines, htree, -⟩ := BinaryTree.exists_lines_definition 5 (by decide)
  obtain ⟨kochLines, hkoch, -⟩ := KochCurve.exists_lines_definition 3 (by decide)
  refine ⟨dragon, _, _, hdragon, htree, hkoch, ?_⟩
  have arts : List.Forall₂ (fun picture art => (definition {} picture.1 picture.2).value = .ok art)
      gallery [dragon, .ofList (Canvas.unlines treeLines), .ofList (Canvas.unlines kochLines)] := by
    simp only [gallery, List.forall₂_cons]
    exact ⟨hdragon, htree, hkoch, .nil⟩
  have pictures : i.pictures readFile = .ok gallery := by
    rw [Invocation.pictures, h]
  rw [run_of_arts pictures arts]
  simp only [List.flatMap_cons, List.flatMap_nil, List.append_nil, List.append_assoc]

/-! Stages of a definition file. -/

/-- Why a file gives no definition, by what is read from it: nothing, or bytes that are no UTF-8, or
a text that is no definition. -/
inductive Refuses : Except IoError ByteArray → Error → Prop
  | unreadable (failure : IoError) : Refuses (.error failure) (.io failure)
  | undecodable {bytes : ByteArray} (h : String.fromUTF8? bytes = none) :
      Refuses (.ok bytes) (.io .notUtf8)
  | rejected {bytes : ByteArray} {text : String} {r : Json.Rejection}
      (decoded : String.fromUTF8? bytes = some text) (h : Definition.ofJson text = .error r) :
      Refuses (.ok bytes) (.definition r)

variable {contents : Except IoError ByteArray} {d : Definition} {e : Error}

theorem loadDefinition_ok (bytes : ByteArray) : loadDefinition (.ok bytes) =
    match String.fromUTF8? bytes with
    | none => .error (.io .notUtf8)
    | some text => (Definition.ofJson text).mapError .definition := rfl

theorem loadDefinition_eq_ok_iff : loadDefinition contents = .ok d ↔
    ∃ bytes text, contents = .ok bytes ∧ String.fromUTF8? bytes = some text ∧
      Definition.ofJson text = .ok d := by
  cases contents with
  | error failure => exact ⟨nofun, nofun⟩
  | ok bytes =>
    rw [loadDefinition_ok]
    cases decoded : String.fromUTF8? bytes <;> simp [Except.mapError_eq_ok_iff, decoded]

theorem loadDefinition_eq_error_iff : loadDefinition contents = .error e ↔ Refuses contents e := by
  cases contents with
  | error failure =>
    constructor
    · intro h
      obtain rfl := Except.error.inj h
      exact .unreadable failure
    · rintro ⟨⟩
      rfl
  | ok bytes =>
    rw [loadDefinition_ok]
    cases decoded : String.fromUTF8? bytes with
    | none =>
      constructor
      · intro h
        obtain rfl := Except.error.inj h
        exact .undecodable decoded
      · rintro (_ | _ | ⟨decoded', -⟩)
        · rfl
        · cases decoded.symm.trans decoded'
    | some text =>
      dsimp only
      constructor
      · intro h
        cases hread : Definition.ofJson text with
        | ok d => rw [hread] at h; cases h
        | error r =>
          rw [hread] at h
          obtain rfl := Except.error.inj h
          exact .rejected decoded hread
      · rintro (_ | undecoded | ⟨decoded', h⟩)
        · cases decoded.symm.trans undecoded
        · obtain rfl := Option.some.inj (decoded.symm.trans decoded')
          rw [h]
          rfl

/-- Why a definition that was read is not drawn. A symbol without a command counts before anything
that goes wrong on the canvas. -/
inductive Undrawn (d : Definition) (n : Nat) : Fault → Prop
  | unknownSymbol {u v : Word} {c : Char} (word : d.grammar.expand n = u ++ c :: v)
      (known : ∀ x ∈ u, d.commands.ops.get? x ≠ none) (unknown : d.commands.ops.get? c = none) :
      Undrawn d n (.unknownSymbol c u.length)
  | drawing {commands : List Command} {fault : Fault}
      (reads : (d.grammar.expand n).map d.commands.ops.get? = commands.map some)
      (h : picture (side {} d.commands.interpreter (d.grammar.expand n))
        (d.start.origin (side {} d.commands.interpreter (d.grammar.expand n))) .north commands =
          .error fault) :
      Undrawn d n fault

theorem definition_eq_error_iff {n : Nat} {fault : Fault} :
    (definition {} d n).value = .error fault ↔ Undrawn d n fault := by
  rw [value_definition, value_word_eq_error_iff, Interpreter.instructions_eq_error_iff]
  constructor
  · rintro (⟨u, c, v, word, known, unknown, rfl⟩ | ⟨commands, reads, h⟩)
    · exact .unknownSymbol word known unknown
    · exact .drawing reads h
  · rintro (⟨word, known, unknown⟩ | ⟨reads, h⟩)
    · exact .inl ⟨_, _, _, word, known, unknown, rfl⟩
    · exact .inr ⟨_, reads, h⟩

namespace Invocation

variable {i : Invocation} {readFile : String → Except IoError ByteArray} {art : String}

inductive Selects (i : Invocation) (readFile : String → Except IoError ByteArray) :
    Definition → Prop
  | preset {p : Preset} (source : i.source = .preset p) : Selects i readFile p.definition
  | file {path text : String} {bytes : ByteArray} {d : Definition} (source : i.source = .file path)
      (read : readFile path = .ok bytes) (decoded : String.fromUTF8? bytes = some text)
      (accepted : Definition.ofJson text = .ok d) : Selects i readFile d

inductive Meets (i : Invocation) (readFile : String → Except IoError ByteArray) : Error → Prop
  | load {path : String} {e : Error} (source : i.source = .file path)
      (h : Refuses (readFile path) e) : Meets i readFile e
  | render {d : Definition} {fault : Fault} (selects : i.Selects readFile d)
      (h : Undrawn d i.recursions fault) : Meets i readFile (.fault fault)

theorem selects_preset_iff {p : Preset} (source : i.source = .preset p) :
    i.Selects readFile d ↔ d = p.definition := by
  constructor
  · rintro (source' | source')
    · obtain rfl := Source.preset.inj (source.symm.trans source')
      rfl
    · cases source.symm.trans source'
  · rintro rfl
    exact .preset source

theorem selects_file_iff {path : String} (source : i.source = .file path) :
    i.Selects readFile d ↔ ∃ bytes text, readFile path = .ok bytes ∧
      String.fromUTF8? bytes = some text ∧ Definition.ofJson text = .ok d := by
  constructor
  · rintro (source' | ⟨source', read, decoded, accepted⟩)
    · cases source.symm.trans source'
    · obtain rfl := Source.file.inj (source.symm.trans source')
      exact ⟨_, _, read, decoded, accepted⟩
  · rintro ⟨bytes, text, read, decoded, accepted⟩
    exact .file source read decoded accepted

theorem pictures_of_selects (h : i.Selects readFile d) :
    i.pictures readFile = .ok [(d, i.recursions)] := by
  cases h with
  | preset source => rw [pictures, source]
  | file source read decoded accepted =>
    rw [pictures, source]
    dsimp only
    rw [loadDefinition_eq_ok_iff.mpr ⟨_, _, read, decoded, accepted⟩]
    rfl

theorem run_of_art (selects : i.Selects readFile d)
    (h : (definition {} d i.recursions).value = .ok art) :
    i.run readFile = ⟨Sink.frame art, none⟩ := by
  rw [run_of_arts (pictures_of_selects selects) (.cons h .nil), List.flatMap_singleton]

theorem run_of_meets (h : i.Meets readFile e) : i.run readFile = ⟨[], some e⟩ := by
  cases h with
  | load source h =>
    rw [run, pictures, source]
    dsimp only
    rw [loadDefinition_eq_error_iff.mpr h]
    rfl
  | render selects h =>
    rw [run, pictures_of_selects selects]
    dsimp only
    rw [Sink.drawAll, Sink.draw_of_fault (definition_eq_error_iff.mpr h)]

theorem Meets.eq {e' : Error} (h : i.Meets readFile e) (h' : i.Meets readFile e') : e' = e := by
  have same := (run_of_meets h').symm.trans (run_of_meets h)
  exact Option.some.inj (congrArg Outcome.error same)

theorem art_or_meets (single : i.source ≠ .gallery) (readFile : String → Except IoError ByteArray) :
    (∃ d art, i.Selects readFile d ∧ (definition {} d i.recursions).value = .ok art) ∨
      ∃ e, i.Meets readFile e := by
  have drawn_or_not (d : Definition) (selects : i.Selects readFile d) :
      (∃ d art, i.Selects readFile d ∧ (definition {} d i.recursions).value = .ok art) ∨
        ∃ e, i.Meets readFile e := by
    cases h : (definition {} d i.recursions).value with
    | ok art => exact .inl ⟨d, art, selects, h⟩
    | error fault => exact .inr ⟨_, .render selects (definition_eq_error_iff.mp h)⟩
  cases source : i.source with
  | gallery => exact absurd source single
  | preset p => exact drawn_or_not _ (.preset source)
  | file path =>
    cases h : loadDefinition (readFile path) with
    | error e => exact .inr ⟨e, .load source (loadDefinition_eq_error_iff.mp h)⟩
    | ok d =>
      obtain ⟨bytes, text, read, decoded, accepted⟩ := loadDefinition_eq_ok_iff.mp h
      exact drawn_or_not d (.file source read decoded accepted)

theorem succeeds_iff (single : i.source ≠ .gallery) :
    ((i.run readFile).exitCode = 0 ∧ (i.run readFile).output = Sink.frame art) ↔
      ∃ d, i.Selects readFile d ∧ (definition {} d i.recursions).value = .ok art := by
  constructor
  · rintro ⟨code, output⟩
    rcases art_or_meets single readFile with ⟨d, art', selects, drawn⟩ | ⟨e, meets⟩
    · rw [run_of_art selects drawn] at output
      obtain rfl := Sink.frame_injective output
      exact ⟨d, selects, drawn⟩
    · rw [run_of_meets meets] at code
      cases code
  · rintro ⟨d, selects, drawn⟩
    rw [run_of_art selects drawn]
    exact ⟨rfl, rfl⟩

/-- A text reports an error. Of what is wrong with the text of a definition nothing is said. -/
def Reports (text : String) : Error → Prop
  | .definition _ => "error: invalid l-system definition".toList <+: text.toList
  | e => text = "error: " ++ e.message ++ "\n"

theorem reports_diagnostic (output : List UInt8) (e : Error) :
    Reports (Outcome.diagnostic ⟨output, some e⟩) e := by
  cases e with
  | fault f => rfl
  | io e => rfl
  | definition r =>
    have split : Outcome.diagnostic ⟨output, some (.definition r)⟩ =
        "error: " ++ ("invalid l-system definition: " ++ r.message) ++ "\n" := rfl
    have whole : "error: ".toList ++ "invalid l-system definition: ".toList =
        "error: invalid l-system definition".toList ++ ": ".toList := by decide
    refine ⟨": ".toList ++ r.message.toList ++ "\n".toList, ?_⟩
    rw [split]
    simp only [String.toList_append, ← List.append_assoc]
    rw [whole]

/-- An invocation is all or nothing. It succeeds with the frame of a picture just when the source
named gives this picture, and the gallery always succeeds. Otherwise it writes nothing to the output
and reports the one error that it meets. -/
theorem run_all_or_nothing (i : Invocation) (readFile : String → Except IoError ByteArray) :
    let o := i.run readFile
    (∀ path art, i.source = .file path →
      (o.exitCode = 0 ∧ o.output = Sink.frame art ↔
        ∃ bytes text d, readFile path = .ok bytes ∧ String.fromUTF8? bytes = some text ∧
          Definition.ofJson text = .ok d ∧ (definition {} d i.recursions).value = .ok art)) ∧
    (∀ p art, i.source = .preset p →
      (o.exitCode = 0 ∧ o.output = Sink.frame art ↔
        (definition {} p.definition i.recursions).value = .ok art)) ∧
    (i.source = .gallery → o.exitCode = 0 ∧ ∃ dragon tree koch,
      (definition {} Preset.dragonCurve.definition 10).value = .ok dragon ∧
      (definition {} Preset.binaryTree.definition 5).value = .ok tree ∧
      (definition {} Preset.kochCurve.definition 3).value = .ok koch ∧
      o.output = Sink.frame dragon ++ Sink.frame tree ++ Sink.frame koch) ∧
    (i.source ≠ .gallery → (∀ art, ¬(o.exitCode = 0 ∧ o.output = Sink.frame art)) →
      o.exitCode = 1 ∧ o.output = [] ∧
        ∃ e, (∀ e', i.Meets readFile e' ↔ e' = e) ∧ Reports o.diagnostic e) := by
  intro o
  refine ⟨?_, ?_, ?_, ?_⟩
  · intro path art source
    have single : i.source ≠ .gallery := by simp [source]
    rw [succeeds_iff single]
    simp only [selects_file_iff source]
    constructor
    · rintro ⟨d, ⟨bytes, text, read, decoded, accepted⟩, drawn⟩
      exact ⟨bytes, text, d, read, decoded, accepted, drawn⟩
    · rintro ⟨bytes, text, d, read, decoded, accepted, drawn⟩
      exact ⟨d, ⟨bytes, text, read, decoded, accepted⟩, drawn⟩
  · intro p art source
    have single : i.source ≠ .gallery := by simp [source]
    rw [succeeds_iff single]
    simp only [selects_preset_iff source, exists_eq_left]
  · intro source
    obtain ⟨dragon, tree, koch, hdragon, htree, hkoch, run⟩ := run_of_gallery source readFile
    have written : o = ⟨Sink.frame dragon ++ Sink.frame tree ++ Sink.frame koch, none⟩ := run
    rw [written]
    exact ⟨rfl, dragon, tree, koch, hdragon, htree, hkoch, rfl⟩
  · intro single failed
    rcases art_or_meets single readFile with ⟨d, art, selects, drawn⟩ | ⟨e, meets⟩
    · exact absurd ((succeeds_iff single).mpr ⟨d, selects, drawn⟩) (failed art)
    · have run : o = ⟨[], some e⟩ := run_of_meets meets
      have only (e' : Error) : i.Meets readFile e' ↔ e' = e :=
        ⟨meets.eq, fun same => same ▸ meets⟩
      rw [run]
      exact ⟨rfl, rfl, e, only, reports_diagnostic [] e⟩

/-- Each file has its name as the axiom: one holds a line, in the other the second symbol has no
command. A preset and the gallery need no file, and the gallery does not heed the depth. -/
theorem run_all_or_nothing_of_line :
    let text (word : String) := "\x7b\"name\":\"line\",\"grammar\":\x7b\"axiom\":\"" ++ word ++
      "\"\x7d,\"commands\":\x7b\"ops\":\x7b\"F\":\"draw_line\"\x7d\x7d,\"start\":\"central\"\x7d"
    let readFile (path : String) : Except IoError ByteArray := .ok (text path).toUTF8
    let line := (⟨.file "F", 3⟩ : Invocation).run readFile
    let unread := (⟨.file "F?", 3⟩ : Invocation).run readFile
    let tree := (⟨.preset .binaryTree, 0⟩ : Invocation).run readFile
    let all := (⟨.gallery, 7⟩ : Invocation).run readFile
    (line.exitCode = 0 ∧ line.output = Sink.frame "↑\n") ∧
    (tree.exitCode = 0 ∧ tree.output = Sink.frame "↑\n") ∧
    all.exitCode = 0 ∧
    unread.exitCode = 1 ∧ unread.output = [] ∧
      unread.diagnostic = "error: unknown turtle symbol '?' at index 1\n" := by
  intro text readFile line unread tree all
  let definitionOf (word : Word) : Definition :=
    { name := "line", grammar := { start := word }, commands := .ofEdits [.bind 'F' .drawLine],
      start := .central }
  have decoded (word : String) : String.fromUTF8? (text word).toUTF8 = some (text word) :=
    dif_pos (text word).isValidUTF8
  have acceptedLine : Definition.ofJson (text "F") = .ok (definitionOf ['F']) := by
    simp only [text, definitionOf]
    decide +kernel
  have acceptedUnread : Definition.ofJson (text "F?") = .ok (definitionOf ['F', '?']) := by
    simp only [text, definitionOf]
    decide +kernel
  have drawn : (definition {} (definitionOf ['F']) 3).value = .ok "↑\n" := by decide +kernel
  have grown : (definition {} Preset.binaryTree.definition 0).value = .ok "↑\n" := by decide +kernel
  have undrawn : (definition {} (definitionOf ['F', '?']) 3).value =
      .error (.unknownSymbol '?' 1) := by decide +kernel
  obtain ⟨ofFile, _, _, _⟩ := run_all_or_nothing ⟨.file "F", 3⟩ readFile
  obtain ⟨_, ofPreset, _, _⟩ := run_all_or_nothing ⟨.preset .binaryTree, 0⟩ readFile
  obtain ⟨_, _, ofGallery, _⟩ := run_all_or_nothing ⟨.gallery, 7⟩ readFile
  obtain ⟨ofUnread, _, _, failing⟩ := run_all_or_nothing ⟨.file "F?", 3⟩ readFile
  have failed (art : String) : ¬(unread.exitCode = 0 ∧ unread.output = Sink.frame art) := by
    intro succeeds
    obtain ⟨bytes, _, d, read, decoded', accepted, drawn'⟩ := (ofUnread "F?" art rfl).mp succeeds
    obtain rfl := Except.ok.inj read
    obtain rfl := Option.some.inj ((decoded "F?").symm.trans decoded')
    obtain rfl := Except.ok.inj (acceptedUnread.symm.trans accepted)
    cases undrawn.symm.trans drawn'
  obtain ⟨code, output, e, only, reported⟩ := failing (by simp) failed
  have meets := (only _).mp (.render (.file rfl rfl (decoded "F?") acceptedUnread)
    (definition_eq_error_iff.mp undrawn))
  subst meets
  have message : "error: " ++ (Error.fault (.unknownSymbol '?' 1)).message ++ "\n" =
      "error: unknown turtle symbol '?' at index 1\n" := by decide +kernel
  have told : unread.diagnostic = _ := reported
  exact ⟨(ofFile "F" _ rfl).mpr ⟨_, _, _, rfl, decoded "F", acceptedLine, drawn⟩,
    (ofPreset .binaryTree _ rfl).mpr grown, (ofGallery rfl).1, code, output, told.trans message⟩

end Invocation
end TurtleArt.Cli
