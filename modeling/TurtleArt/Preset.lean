import TurtleArt.Definition

/-! The bundled fractals. -/

namespace TurtleArt

inductive Preset
  | binaryTree
  | dragonCurve
  | kochCurve
  deriving DecidableEq, Repr

namespace Preset

def all : List Preset :=
  [binaryTree, dragonCurve, kochCurve]

def name : Preset → String
  | binaryTree => "binary-tree"
  | dragonCurve => "dragon-curve"
  | kochCurve => "koch-curve"

def ofName? (name : String) : Option Preset :=
  all.find? fun p => p.name = name

def curveCommands : CommandTable :=
  CommandTable.bindAll ∅ [('F', .drawLine), ('+', .turnLeft), ('-', .turnRight)]

def grammar : Preset → Grammar
  | binaryTree =>
    { start := ['0']
      rules := .ofList [('0', ['1', '[', '0', ']', '0']), ('1', ['1', '1'])] }
  | dragonCurve =>
    { start := ['F', 'X']
      rules := .ofList
        [('X', ['X', '+', 'Y', 'F', '+']), ('Y', ['-', 'F', 'X', '-', 'Y'])]
      scaffolding := .ofList ['X', 'Y'] }
  | kochCurve =>
    { start := ['F']
      rules := .ofList [('F', ['F', '+', 'F', '-', 'F', '-', 'F', '+', 'F'])] }

def commands : Preset → CommandTable
  | binaryTree =>
    CommandTable.bindAll ∅
      [('0', .drawLeaf), ('1', .drawLine), ('[', .pushBranch), (']', .popBranch)]
  | dragonCurve | kochCurve => curveCommands

def start : Preset → StartPosition
  | binaryTree => .middleBottom
  | dragonCurve => .central
  | kochCurve => .bottomRight

def definition (p : Preset) : Definition where
  name := p.name
  grammar := p.grammar
  commands := p.commands
  start := p.start

end Preset
end TurtleArt
