import TurtleArt.Position
import TurtleArt.Quoted

/-! What can stop a drawing. -/

namespace TurtleArt

inductive Fault
  /-- A symbol without a command, with the number of symbols before it. -/
  | unknownSymbol (symbol : Char) (index : Nat)
  /-- A branch was closed that was never opened, after `index` commands. -/
  | stackUnderflow (index : Nat)
  | outOfBounds (position : Position) (side : Nat)
  deriving DecidableEq, Repr

def Fault.message : Fault → String
  | unknownSymbol symbol index =>
    "unknown turtle symbol " ++ Quoted.char symbol ++ " at index " ++ toString index
  | stackUnderflow index => "turtle state stack underflow at command " ++ toString index
  | outOfBounds ⟨x, y⟩ side =>
    "position (" ++ toString x.toInt ++ ", " ++ toString y.toInt ++ ") is outside a " ++ toString side ++
      "x" ++ toString side ++ " canvas"

end TurtleArt
