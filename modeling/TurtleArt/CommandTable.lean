import TurtleArt.Interpreter
import TurtleArt.Symbol.Map

/-! Interpreters given by a table. The movement flags are kept beside the commands: binding a
symbol sets its flag by the kind of the command, and the flag can be overridden later. -/

namespace TurtleArt

structure CommandTable where
  ops : SymbolMap Command := ∅
  movement : SymbolSet := ∅
  deriving DecidableEq

namespace CommandTable

instance : EmptyCollection CommandTable := ⟨{}⟩

def setMovement (t : CommandTable) (c : Char) (flag : Bool) : CommandTable :=
  { t with movement := if flag then t.movement.insert c else t.movement.erase c }

/-- Binds a symbol to a command, and flags it as a movement just when the command draws. -/
def bind (t : CommandTable) (c : Char) (command : Command) : CommandTable :=
  { t with ops := t.ops.insert c command }.setMovement c command.isDrawing

def bindAll (t : CommandTable) (bindings : List (Char × Command)) : CommandTable :=
  bindings.foldl (fun t (c, command) => t.bind c command) t

def standard : List (Char × Command) :=
  [('F', .drawLine), ('+', .turnLeft), ('-', .turnRight), ('[', .pushBranch), (']', .popBranch)]

/-- Flags the drawing symbols of a table in which nothing is flagged. -/
def inferMovement (t : CommandTable) : CommandTable :=
  if t.movement.isEmpty then { t with movement := t.ops.keysWhere Command.isDrawing } else t

inductive Edit
  | bind (c : Char) (command : Command)
  | setMovement (c : Char) (flag : Bool)
  | bindStandard
  deriving DecidableEq

def edit (t : CommandTable) : Edit → CommandTable
  | .bind c command => t.bind c command
  | .setMovement c flag => t.setMovement c flag
  | .bindStandard => t.bindAll standard

def ofEdits (edits : List Edit) : CommandTable :=
  edits.foldl edit ∅

def interpreter (t : CommandTable) : Interpreter where
  command? := t.ops.get?
  isMovement := t.movement.contains

end CommandTable
end TurtleArt
