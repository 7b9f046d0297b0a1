import TurtleArt.Fault
import TurtleArt.Json.Rejection

/-! Everything that can go wrong between a definition file and the picture written. -/

namespace TurtleArt

inductive IoError
  | closed
  | wroteNothing
  | flushFailed
  | notUtf8
  | system (code : Nat) (description : String)
  deriving DecidableEq, Repr

def IoError.message : IoError → String
  | closed => "closed"
  | wroteNothing => "failed to write whole buffer"
  | flushFailed => "flush failed"
  | notUtf8 => "stream did not contain valid UTF-8"
  | system code description => description ++ " (os error " ++ toString code ++ ")"

inductive Error
  | fault (f : Fault)
  | io (e : IoError)
  | definition (r : Json.Rejection)
  deriving DecidableEq

def Error.message : Error → String
  | fault f => f.message
  | io e => "io error: " ++ e.message
  | definition r => "invalid l-system definition: " ++ r.message

end TurtleArt
