import TurtleArt.Format.Name
import TurtleArt.Json.Printer
import TurtleArt.Preset
import TurtleArt.Turtle.Pose

/-! The JSON form of definitions and their parts. Fields are written in a fixed order, maps and
sets in the order of their symbols. -/

namespace TurtleArt

open Json

def SymbolMap.toValue {α : Type} (encode : α → Value) (m : SymbolMap α) : Value :=
  .object (m.toList.map fun (c, a) => (.ofChars [c], encode a))

def SymbolSet.toValue (s : SymbolSet) : Value :=
  .array (s.toList.map fun c => .ofWord [c])

def Direction.toValue (d : Direction) : Value :=
  .ofString d.name

def Command.toValue (c : Command) : Value :=
  .ofString c.name

def Preset.toValue (p : Preset) : Value :=
  .ofString p.name

def Position.toValue (p : Position) : Value :=
  .array [.ofInt p.x.toInt, .ofInt p.y.toInt]

def Pose.toValue (s : Pose) : Value :=
  .ofFields [("position", s.position.toValue), ("direction", s.heading.toValue)]

def StartPosition.toValue : StartPosition → Value
  | middleBottom => .ofString "middle_bottom"
  | central => .ofString "central"
  | bottomRight => .ofString "bottom_right"
  | fixed x y =>
    .ofFields [("fixed", .ofFields [("x", .ofInt x.toInt), ("y", .ofInt y.toInt)])]

def Grammar.toValue (g : Grammar) : Value :=
  .ofFields
    [("axiom", .ofWord g.start), ("rules", g.rules.toValue .ofWord),
      ("scaffolding", g.scaffolding.toValue)]

def CommandTable.toValue (t : CommandTable) : Value :=
  .ofFields [("ops", t.ops.toValue Command.toValue), ("movement", t.movement.toValue)]

namespace Definition

def toValue (d : Definition) : Value :=
  .ofFields
    [("name", .ofString d.name), ("grammar", d.grammar.toValue),
      ("commands", d.commands.toValue), ("start", d.start.toValue)]

def toJson (d : Definition) : String :=
  d.toValue.pretty

end Definition
end TurtleArt
