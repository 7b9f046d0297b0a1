import TurtleArt.Canvas.Basic
import TurtleArt.Unicode.WhiteSpace

/-! A canvas as text: rows without a visible character are left out, and the others are cut to
one window that reaches from the leftmost visible character to the rightmost. -/

namespace TurtleArt.Canvas

open Unicode

variable {side : Nat}

def lines (c : Canvas side) : List (List Char) :=
  c.rows.toList.reverse.map Vector.toList

def indent (row : List Char) : Nat :=
  (row.takeWhile isBlank).length

def extent (row : List Char) : Nat :=
  (row.reverse.dropWhile isBlank).length

def crop (rows : List (List Char)) : List (List Char) :=
  let drawn := rows.filter fun row => !row.all isBlank
  let first := (drawn.map indent).min?.getD 0
  let last := (drawn.map extent).max?.getD 0
  drawn.map fun row => (row.take last).drop first

def unlines (rows : List (List Char)) : List Char :=
  rows.flatMap fun row => row ++ ['\n']

/-- The occupied region, one line a row. A canvas without a visible character yields its top
left cell alone. -/
def draw (c : Canvas side) : String :=
  String.ofList <|
    match crop c.lines with
    | [] => unlines ((c.lines.take 1).map fun row => row.take 1)
    | rows => unlines rows

end TurtleArt.Canvas
