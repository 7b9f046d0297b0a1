import TurtleArt.Output.Sink
import TurtleArt.Render.Basic

/-! Pictures on a sink: each is followed by a line break and a spacer line, and then flushed. A
picture that cannot be drawn leaves the sink as it was. -/

namespace TurtleArt

def utf8 (s : String) : List UInt8 :=
  s.toUTF8.data.toList

def spacer : String :=
  "\n\n\n\n"

namespace Sink

def print (s : Sink) (art : String) : Sink × Option IoError :=
  match s.writeAll [utf8 art, utf8 "\n", utf8 spacer, utf8 "\n"] with
  | (s, none) => s.flush
  | (s, some e) => (s, some e)

def draw (s : Sink) (config : Config) (d : Definition) (n : Nat) : Sink × Option Error :=
  match (Render.definition config d n).value with
  | .error fault => (s, some (.fault fault))
  | .ok art =>
    let (s, e) := s.print art
    (s, e.map .io)

inductive Job
  | print (art : String)
  | draw (d : Definition) (n : Nat)

def perform (s : Sink) (config : Config) : Job → Sink × Option Error
  | .print art =>
    let (s, e) := s.print art
    (s, e.map .io)
  | .draw d n => s.draw config d n

/-- Performs every job, whether those before it failed or not, and tells how each one ended. -/
def performAll (s : Sink) (config : Config) : List Job → Sink × List (Option Error)
  | [] => (s, [])
  | job :: jobs =>
    let (s, e) := s.perform config job
    let (s, es) := s.performAll config jobs
    (s, e :: es)

/-- Draws definitions in turn, up to the first that fails. -/
def drawAll (s : Sink) (config : Config) : List (Definition × Nat) → Sink × Option Error
  | [] => (s, none)
  | (d, n) :: rest =>
    match s.draw config d n with
    | (s, none) => s.drawAll config rest
    | (s, some e) => (s, some e)

end Sink
end TurtleArt
