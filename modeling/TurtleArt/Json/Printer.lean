import TurtleArt.Json.Value

/-! Writing JSON values. A layout says where lines break; it adds blanks between tokens and
nothing else. -/

namespace TurtleArt.Json

structure Layout where
  lineBreak : Nat → List Char
  colon : List Char

namespace Layout

def compact : Layout where
  lineBreak _ := []
  colon := [':']

def pretty : Layout where
  lineBreak depth := '\n' :: List.replicate (2 * depth) ' '
  colon := [':', ' ']

end Layout

def hexDigits (n : Nat) : List Char :=
  let digits := Nat.toDigits 16 n
  List.replicate (4 - digits.length) '0' ++ digits

def escapeChar (c : Char) : List Char :=
  match c with
  | '"' => ['\\', '"']
  | '\\' => ['\\', '\\']
  | '\x08' => ['\\', 'b']
  | '\x0c' => ['\\', 'f']
  | '\n' => ['\\', 'n']
  | '\r' => ['\\', 'r']
  | '\t' => ['\\', 't']
  | c => if c.toNat < 0x20 then ['\\', 'u'] ++ hexDigits c.toNat else [c]

def Piece.render : Piece → List Char
  | char c => escapeChar c
  | surrogate unit => ['\\', 'u'] ++ hexDigits unit

def Text.render (t : Text) : List Char :=
  ['"'] ++ t.flatMap Piece.render ++ ['"']

namespace Numeral

def renderDigits (digits : List Nat) : List Char :=
  digits.map Nat.digitChar

def render (n : Numeral) : List Char :=
  (if n.negative then ['-'] else []) ++ renderDigits n.whole ++
    (if n.fraction.isEmpty then [] else '.' :: renderDigits n.fraction) ++
    match n.exponent with
    | none => []
    | some (negative, digits) => ['e', if negative then '-' else '+'] ++ renderDigits digits

end Numeral

namespace Value

mutual

def render (layout : Layout) (depth : Nat) : Value → List Char
  | null => ['n', 'u', 'l', 'l']
  | bool true => ['t', 'r', 'u', 'e']
  | bool false => ['f', 'a', 'l', 's', 'e']
  | number n => n.render
  | string t => t.render
  | array [] => ['[', ']']
  | array (v :: items) =>
    ['['] ++ layout.lineBreak (depth + 1) ++ v.render layout (depth + 1) ++
      renderItems layout (depth + 1) items ++ layout.lineBreak depth ++ [']']
  | object [] => ['\x7b', '\x7d']
  | object ((key, v) :: members) =>
    ['\x7b'] ++ layout.lineBreak (depth + 1) ++ key.render ++ layout.colon ++
      v.render layout (depth + 1) ++ renderMembers layout (depth + 1) members ++
      layout.lineBreak depth ++ ['\x7d']

def renderItems (layout : Layout) (depth : Nat) : List Value → List Char
  | [] => []
  | v :: items =>
    [','] ++ layout.lineBreak depth ++ v.render layout depth ++ renderItems layout depth items

def renderMembers (layout : Layout) (depth : Nat) : List (Text × Value) → List Char
  | [] => []
  | (key, v) :: members =>
    [','] ++ layout.lineBreak depth ++ key.render ++ layout.colon ++ v.render layout depth ++
      renderMembers layout depth members

end

def compact (v : Value) : String :=
  String.ofList (v.render .compact 0)

def pretty (v : Value) : String :=
  String.ofList (v.render .pretty 0)

def ofWord (w : List Char) : Value :=
  string (.ofChars w)

def ofString (s : String) : Value :=
  ofWord s.toList

def ofInt (i : Int) : Value :=
  number (.ofInt i)

def ofFields (fields : List (String × Value)) : Value :=
  object (fields.map fun (name, v) => (.ofChars name.toList, v))

end Value
end TurtleArt.Json
