import TurtleArt.Decimal.Shortest
import TurtleArt.Json.Value
import TurtleArt.Quoted

/-! Why a text is not read as a value of some type: it is no JSON, or what it says does not fit
the type. -/

namespace TurtleArt.Json

inductive Found
  | null
  | bool (b : Bool)
  | number (n : Number)
  | string (s : String)
  | sequence
  | map
  | unitVariant
  deriving DecidableEq

inductive Mismatch
  | missingField (name : String)
  | duplicateField (name : String)
  | unknownVariant (name : String) (known : List String)
  | invalidType (found : Found) (expected : String)
  | invalidValue (found : Found) (expected : String)
  | invalidLength (length : Nat) (expected : String)
  deriving DecidableEq

inductive Rejection
  | breach (b : Breach)
  | mismatch (m : Mismatch)
  deriving DecidableEq

def quoteName (s : String) : String :=
  "`" ++ s ++ "`"

def Found.describe : Found → String
  | null => "null"
  | bool b => "boolean " ++ quoteName (if b then "true" else "false")
  | number (.integer i) => "integer " ++ quoteName (toString i)
  | number (.floating negative magnitude) =>
    "floating point " ++ quoteName (String.ofList (Decimal.text negative magnitude))
  | string s => "string " ++ Quoted.string s
  | sequence => "sequence"
  | map => "map"
  | unitVariant => "unit variant"

def Mismatch.message : Mismatch → String
  | missingField name => "missing field " ++ quoteName name
  | duplicateField name => "duplicate field " ++ quoteName name
  | unknownVariant name known =>
    "unknown variant " ++ quoteName name ++ ", expected one of " ++
      ", ".intercalate (known.map quoteName)
  | invalidType found expected =>
    "invalid type: " ++ found.describe ++ ", expected " ++ expected
  | invalidValue found expected =>
    "invalid value: " ++ found.describe ++ ", expected " ++ expected
  | invalidLength length expected =>
    "invalid length " ++ toString length ++ ", expected " ++ expected

def Rejection.message : Rejection → String
  | breach .malformed => "malformed text"
  | breach .truncated => "the text ends too early"
  | mismatch m => m.message

def Text.read (t : Text) : Except Rejection String :=
  match t.chars? with
  | some w => .ok (String.ofList w)
  | none => .error (.breach .malformed)

/-- How a string broke off: at a lone surrogate, if it has one. -/
def Text.breach (t : Text) (b : Breach) : Breach :=
  if t.isUnpaired then .malformed else b

/-- The refusal of a value where something else is expected. Arrays and objects are refused at
their opening, other values when they have been read. -/
def Value.refuse (expected : String) : Value → Rejection
  | null => .mismatch (.invalidType .null expected)
  | bool b => .mismatch (.invalidType (.bool b) expected)
  | number n =>
    match n.number? with
    | some n => .mismatch (.invalidType (.number n) expected)
    | none => .breach .malformed
  | string t =>
    match t.read with
    | .ok s => .mismatch (.invalidType (.string s) expected)
    | .error r => r
  | array _ => .mismatch (.invalidType .sequence expected)
  | object _ => .mismatch (.invalidType .map expected)

def Fragment.refuse (expected : String) : Fragment → Rejection
  | missing b | literal b | numeral b => .breach b
  | string t b => .breach (t.breach b)
  | array .. | item .. => .mismatch (.invalidType .sequence expected)
  | object .. | keyless .. | key .. | value .. => .mismatch (.invalidType .map expected)

/-- How a value that nobody reads broke off. Its surrogates need not pair up, and a number in it
may not break off at all. -/
def Fragment.ignoredBreach : Fragment → Breach
  | missing b | literal b | string _ b | array _ b | object _ b | keyless _ b | key _ _ b => b
  | numeral _ => .malformed
  | item _ f | value _ _ f => f.ignoredBreach

end TurtleArt.Json
