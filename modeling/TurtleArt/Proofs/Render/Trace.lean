import TurtleArt.Proofs.Grammar
import TurtleArt.Proofs.Render.Outcome

/-! What a rendering reports, told without running it. A word is announced once all its symbols are
read, before anything is drawn, so how the drawing ends does not show in the report. -/

namespace TurtleArt.Render

open Interpreter

end TurtleArt.Render
