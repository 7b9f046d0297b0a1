/-! Character properties given as inclusive ranges of code points. -/

namespace TurtleArt.Unicode

def inRanges (ranges : List (Nat × Nat)) (c : Char) : Bool :=
  ranges.any fun (low, high) => low ≤ c.toNat && c.toNat ≤ high

end TurtleArt.Unicode
