import TurtleArt.Json.Breach

/-! The contents of string literals. An escape can name half of a surrogate pair, so a literal
stands for characters and such halves; whether the halves pair up is a question of its own. -/

namespace TurtleArt.Json

inductive Piece
  | char (c : Char)
  /-- A code unit from `0xD800` up to `0xDFFF`. -/
  | surrogate (unit : Nat)
  deriving DecidableEq

abbrev Text := List Piece

namespace Piece

def ofUnit (unit : Nat) : Piece :=
  if 0xd800 ≤ unit ∧ unit ≤ 0xdfff then surrogate unit else char (Char.ofNat unit)

end Piece

namespace Text

def isHigh (unit : Nat) : Bool :=
  unit < 0xdc00

def isLow (unit : Nat) : Bool :=
  0xdc00 ≤ unit

def paired (high low : Nat) : Char :=
  Char.ofNat (0x10000 + (high - 0xd800) * 0x400 + (low - 0xdc00))

def ofChars (w : List Char) : Text :=
  w.map .char

def chars? : Text → Option (List Char)
  | [] => some []
  | .char c :: rest => (chars? rest).map (c :: ·)
  | .surrogate high :: .surrogate low :: rest =>
    if isHigh high && isLow low then (chars? rest).map (paired high low :: ·) else none
  | .surrogate _ :: _ => none

/-- Whether a surrogate stands alone whatever follows the text. -/
def isUnpaired : Text → Bool
  | [] => false
  | .char _ :: rest => isUnpaired rest
  | [.surrogate high] => !isHigh high
  | .surrogate high :: .surrogate low :: rest =>
    !(isHigh high && isLow low) || isUnpaired rest
  | .surrogate _ :: .char _ :: _ => true

@[simp] theorem chars?_ofChars (w : List Char) : chars? (ofChars w) = some w := by
  induction w with
  | nil => rfl
  | cons c w ih => exact congrArg (Option.map (c :: ·)) ih

end Text
end TurtleArt.Json
