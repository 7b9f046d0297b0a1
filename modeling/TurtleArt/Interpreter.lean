import TurtleArt.Command
import TurtleArt.Fault
import TurtleArt.Grammar

/-! How the symbols of a word are read as commands, and which of them count as movements when a
canvas is sized. The two are independent: any symbol may count. -/

namespace TurtleArt

structure Interpreter where
  command? : Char → Option Command
  isMovement : Char → Bool

namespace Interpreter

/-- The commands of a word, or the first symbol that has none. -/
def instructions (i : Interpreter) (w : Word) : Except Fault (List Command) :=
  w.zipIdx.mapM fun (symbol, index) =>
    match i.command? symbol with
    | some command => .ok command
    | none => .error (.unknownSymbol symbol index)

def movements (i : Interpreter) (w : Word) : Nat :=
  w.countP i.isMovement

end Interpreter
end TurtleArt
