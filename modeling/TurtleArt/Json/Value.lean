import TurtleArt.Json.Numeral
import TurtleArt.Json.Text

/-! What has been read of a JSON text. Arrays and objects keep the order of the text, and objects
keep repeated keys. -/

namespace TurtleArt.Json

inductive Value
  | null
  | bool (b : Bool)
  | number (n : Numeral)
  | string (t : Text)
  | array (items : List Value)
  | object (members : List (Text × Value))

abbrev Member := Text × Value

/-- What was read of a value before its text broke off. -/
inductive Fragment
  | missing (breach : Breach)
  | literal (breach : Breach)
  | numeral (breach : Breach)
  | string (pieces : Text) (breach : Breach)
  /-- An array in which a comma or the closing bracket is due. -/
  | array (items : List Value) (breach : Breach)
  | item (items : List Value) (item : Fragment)
  | object (members : List Member) (breach : Breach)
  | keyless (members : List Member) (breach : Breach)
  | key (members : List Member) (pieces : Text) (breach : Breach)
  /-- An object with the value of `key`, or the colon before it, broken off. -/
  | value (members : List Member) (key : Text) (value : Fragment)

/-- A text read to its end or to the first character that cannot stand where it does. -/
inductive Document
  /-- One value, with nothing but blanks after it unless `trailing`. -/
  | complete (value : Value) (trailing : Bool)
  | broken (fragment : Fragment)

end TurtleArt.Json
