/-! How a text fails to be JSON: by a character that no JSON text has at its place, or by ending
where more is due. -/

namespace TurtleArt.Json

inductive Breach
  | malformed
  | truncated
  deriving DecidableEq, Repr

end TurtleArt.Json
