import TurtleArt.Unicode.Range
import TurtleArt.Unicode.GraphemeExtend
import TurtleArt.Unicode.CategoryOther

/-! Which characters a message can show as they are: those that leave a mark of their own. Left
out are the general categories `C` and `Z`, except for the space, the marks that join the
character before them, and the default ignorable characters. -/

namespace TurtleArt.Unicode

/-- The general category `Z`. -/
def separators : List (Nat × Nat) :=
  [(0x20, 0x20), (0xa0, 0xa0), (0x1680, 0x1680), (0x2000, 0x200a), (0x2028, 0x2029),
    (0x202f, 0x202f), (0x205f, 0x205f), (0x3000, 0x3000)]

/-- The property `Default_Ignorable_Code_Point`. -/
def defaultIgnorable : List (Nat × Nat) :=
  [(0xad, 0xad), (0x34f, 0x34f), (0x61c, 0x61c), (0x115f, 0x1160), (0x17b4, 0x17b5),
    (0x180b, 0x180f), (0x200b, 0x200f), (0x202a, 0x202e), (0x2060, 0x206f), (0x3164, 0x3164),
    (0xfe00, 0xfe0f), (0xfeff, 0xfeff), (0xffa0, 0xffa0), (0xfff0, 0xfff8), (0x1bca0, 0x1bca3),
    (0x1d173, 0x1d17a), (0xe0000, 0xe0fff)]

/-- The letters with the property `Grapheme_Extend`: the halfwidth katakana sound marks, which
have a cell of their own. -/
def extendingLetters : List (Nat × Nat) :=
  [(0xff9e, 0xff9f)]

def isPrintable (c : Char) : Bool :=
  c == ' ' || inRanges extendingLetters c ||
    !(inRanges separators c || inRanges defaultIgnorable c || inRanges graphemeExtend c ||
      inRanges categoryOther c)

end TurtleArt.Unicode
