import TurtleArt.CommandTable
import TurtleArt.StartPosition

/-! A complete drawing: a grammar, the meaning of its symbols, and where the turtle starts. -/

namespace TurtleArt

structure Definition where
  name : String
  grammar : Grammar
  commands : CommandTable
  start : StartPosition
  deriving DecidableEq

namespace Definition

def inferMovement (d : Definition) : Definition :=
  { d with commands := d.commands.inferMovement }

end Definition
end TurtleArt
