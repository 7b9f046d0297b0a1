import TurtleArt.Unicode.Range

/-! The Unicode property `White_Space`, as inclusive ranges of code points. -/

namespace TurtleArt.Unicode

def whiteSpace : List (Nat × Nat) :=
  [(0x9, 0xd), (0x20, 0x20), (0x85, 0x85), (0xa0, 0xa0), (0x1680, 0x1680), (0x2000, 0x200a),
    (0x2028, 0x2029), (0x202f, 0x202f), (0x205f, 0x205f), (0x3000, 0x3000)]

def isBlank (c : Char) : Bool :=
  inRanges whiteSpace c

theorem isBlank_space : isBlank ' ' = true := by decide

end TurtleArt.Unicode
