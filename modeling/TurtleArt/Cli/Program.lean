import TurtleArt.Cli.Arguments
import TurtleArt.Format.Decode
import TurtleArt.Output.Drawer

/-! What an invocation writes. Files are read through a function, so that a run is a value. -/

namespace TurtleArt.Cli

def versionText : String :=
  "lsystem-ascii 0.1.0\n"

structure Outcome where
  output : List UInt8
  error : Option Error

namespace Outcome

def exitCode (o : Outcome) : Nat :=
  if o.error.isNone then 0 else 1

def diagnostic (o : Outcome) : String :=
  match o.error with
  | none => ""
  | some e => "error: " ++ e.message ++ "\n"

end Outcome

def gallery : List (Definition × Nat) :=
  [(Preset.dragonCurve.definition, 10), (Preset.binaryTree.definition, 5),
    (Preset.kochCurve.definition, 3)]

def loadDefinition (contents : Except IoError ByteArray) : Except Error Definition := do
  let bytes ← contents.mapError .io
  match String.fromUTF8? bytes with
  | none => .error (.io .notUtf8)
  | some text => (Definition.ofJson text).mapError .definition

namespace Invocation

def pictures (i : Invocation) (readFile : String → Except IoError ByteArray) :
    Except Error (List (Definition × Nat)) :=
  match i.source with
  | .gallery => .ok gallery
  | .preset p => .ok [(p.definition, i.recursions)]
  | .file path => do
    let d ← loadDefinition (readFile path)
    return [(d, i.recursions)]

def run (i : Invocation) (readFile : String → Except IoError ByteArray) : Outcome :=
  match i.pictures readFile with
  | .error e => ⟨[], some e⟩
  | .ok pictures =>
    let (sink, error) := Sink.drawAll {} {} pictures
    ⟨sink.written, error⟩

end Invocation
end TurtleArt.Cli
