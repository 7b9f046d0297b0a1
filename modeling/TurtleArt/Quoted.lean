import TurtleArt.Unicode.Printable

/-! Characters and strings inside quotes, as messages show them. The quote itself, the backslash
and the characters that would not show are escaped. -/

namespace TurtleArt.Quoted

def escape (quote : Char) (c : Char) : List Char :=
  match c with
  | '\x00' => ['\\', '0']
  | '\t' => ['\\', 't']
  | '\r' => ['\\', 'r']
  | '\n' => ['\\', 'n']
  | '\\' => ['\\', '\\']
  | c =>
    if c = quote then ['\\', c]
    else if Unicode.isPrintable c then [c]
    else ['\\', 'u', '\x7b'] ++ Nat.toDigits 16 c.toNat ++ ['\x7d']

def char (c : Char) : String :=
  String.ofList (['\''] ++ escape '\'' c ++ ['\''])

def string (s : String) : String :=
  String.ofList (['"'] ++ s.toList.flatMap (escape '"') ++ ['"'])

end TurtleArt.Quoted
