import TurtleArt.Error

/-! Places that bytes are written to. A sink may be bounded: it keeps what fits of a write and
refuses the rest. -/

namespace TurtleArt

structure Sink where
  /-- How many bytes the sink takes in all; `none` for any number. -/
  capacity : Option Nat := none
  refusal : IoError := .closed
  flushError : Option IoError := none
  /-- Which flushes fail, counted from 0, where any does. -/
  flushFails : Nat → Bool := fun _ => true
  written : List UInt8 := []
  flushes : Nat := 0

namespace Sink

def write (s : Sink) (bytes : List UInt8) : Sink × Option IoError :=
  match s.capacity with
  | none => ({ s with written := s.written ++ bytes }, none)
  | some capacity =>
    let room := capacity - s.written.length
    ({ s with written := s.written ++ bytes.take room },
      if bytes.length ≤ room then none else some s.refusal)

def writeAll (s : Sink) : List (List UInt8) → Sink × Option IoError
  | [] => (s, none)
  | piece :: pieces =>
    match s.write piece with
    | (s, none) => s.writeAll pieces
    | (s, some e) => (s, some e)

def flushAnswer (s : Sink) (n : Nat) : Option IoError :=
  if s.flushFails n then s.flushError else none

/-- Every flush counts, also one that fails. -/
def flush (s : Sink) : Sink × Option IoError :=
  ({ s with flushes := s.flushes + 1 }, s.flushAnswer s.flushes)

end Sink
end TurtleArt
