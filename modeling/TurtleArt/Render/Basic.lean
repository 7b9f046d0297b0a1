import TurtleArt.Definition
import TurtleArt.Canvas.Crop
import TurtleArt.Turtle.Basic
import TurtleArt.Render.Event

/-! From a definition to its picture: derive the word, read its commands, size a canvas by the
movements among its symbols, run a turtle over the commands and crop what it drew. -/

namespace TurtleArt

structure Config where
  minSide : Nat := 3
  heading : Direction := .north
  deriving DecidableEq

namespace Render

def side (config : Config) (i : Interpreter) (w : Word) : Nat :=
  max config.minSide (i.movements w)

def picture (side : Nat) (origin : Position) (heading : Direction) (commands : List Command) :
    Except Fault String :=
  match ((Turtle.place (.blank side) origin heading).run commands) with
  | .ok t => .ok t.canvas.draw
  | .error failure => .error failure.cause

/-- Draws a word. All its symbols are read before anything is drawn. -/
def word (config : Config) (i : Interpreter) (start : Nat → Position) (w : Word) :
    Logged (Except Fault String) :=
  match i.instructions w with
  | .error fault => pure (.error fault)
  | .ok commands => do
    let side := side config i w
    let origin := start side
    Logged.emit (.drawing commands.length (i.movements w) side origin)
    return picture side origin config.heading commands

def utf8Length (w : Word) : Nat :=
  (String.ofList w).utf8ByteSize

/-- Rewrites a word `n` times, the first of them as generation `index`. -/
def grow (g : Grammar) (index : Nat) (w : Word) : Nat → Logged Word
  | 0 => pure w
  | n + 1 => do
    let next := g.rewriteWord w
    Logged.emit (.generation index (utf8Length next))
    grow g (index + 1) next n

def grammar (config : Config) (g : Grammar) (i : Interpreter) (start : Nat → Position)
    (n : Nat) : Logged (Except Fault String) := do
  let w ← grow g 0 g.start n
  word config i start (g.strip w)

def definition (config : Config) (d : Definition) (n : Nat) : Logged (Except Fault String) := do
  Logged.emit (.definition d.name n)
  grammar config d.grammar d.commands.interpreter (fun side => d.start.origin side) n

theorem value_grow (g : Grammar) (index : Nat) (w : Word) (n : Nat) :
    (grow g index w n).value = g.grown w n := by
  induction n generalizing index w with
  | zero => rfl
  | succ n ih =>
    simp only [grow, Logged.value_bind]
    rw [ih, Grammar.grown_succ]

theorem value_grow_start (g : Grammar) (n : Nat) :
    (grow g 0 g.start n).value = g.derive n :=
  value_grow ..

end Render
end TurtleArt
