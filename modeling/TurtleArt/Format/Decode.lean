import TurtleArt.Format.Name
import TurtleArt.Json.Choice
import TurtleArt.Json.Record
import TurtleArt.Preset
import TurtleArt.Turtle.Pose

/-! Reading definitions and their parts from JSON. -/

namespace TurtleArt

open Json

def Direction.decoder : Decoder Direction :=
  (Choice.ofNames (Direction.all.map fun d => (d.name, d))).decoder

def Command.decoder : Decoder Command :=
  (Choice.ofNames (Command.all.map fun c => (c.name, c))).decoder

def Preset.decoder : Decoder Preset :=
  (Choice.ofNames (Preset.all.map fun p => (p.name, p))).decoder

/-- A position has no form as an object. -/
def Position.decoder : Decoder Position :=
  Decoder.map (fun (x, y, ()) => ⟨x, y⟩) <|
    (Fields.cons "x" .int32 none <| Fields.cons "y" .int32 none .nil).positional
      "a sequence of 2 i32 values"

def Pose.decoder : Decoder Pose :=
  (Fields.cons "position" Position.decoder none <|
    Fields.cons "direction" Direction.decoder none .nil).record "struct TurtleState"
      fun (position, heading, ()) => ⟨position, heading⟩

namespace StartPosition

def fixedDecoder : Decoder StartPosition :=
  (Fields.cons "x" .int32 none <| Fields.cons "y" .int32 none .nil).record
    "struct variant StartPosition::Fixed" fun (x, y, ()) => fixed x y

def decoder : Decoder StartPosition :=
  Choice.decoder
    [("middle_bottom", .unit middleBottom), ("central", .unit central),
      ("bottom_right", .unit bottomRight), ("fixed", .body fixedDecoder)]

end StartPosition

def Grammar.decoder : Decoder Grammar :=
  (Fields.cons "axiom" .word none <|
    Fields.cons "rules" (.symbolMap .word) (some ∅) <|
    Fields.cons "scaffolding" .symbolSet (some ∅) .nil).record "struct RuleSet"
      fun (start, rules, scaffolding, ()) => { start, rules, scaffolding }

def CommandTable.decoder : Decoder CommandTable :=
  (Fields.cons "ops" (.symbolMap Command.decoder) none <|
    Fields.cons "movement" .symbolSet (some ∅) .nil).record "struct CommandTable"
      fun (ops, movement, ()) => { ops, movement }

namespace Definition

def decoder : Decoder Definition :=
  (Fields.cons "name" .string none <|
    Fields.cons "grammar" Grammar.decoder none <|
    Fields.cons "commands" CommandTable.decoder none <|
    Fields.cons "start" StartPosition.decoder none .nil).record "struct LSystemDefinition"
      fun (name, grammar, commands, start, ()) => { name, grammar, commands, start }

/-- Reads a definition. Where no symbol is flagged as a movement, the drawing ones are. -/
def ofJson (text : String) : Except Rejection Definition :=
  inferMovement <$> decoder.read text

end Definition
end TurtleArt
