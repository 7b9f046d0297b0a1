import TurtleArt.Json.Rejection
import TurtleArt.Json.Scan
import TurtleArt.Grammar

/-! Reading values of a type from a scanned text. The first problem in the order of the text
counts, so a decoder also knows what to say about a value that broke off: the rejection of what
came before the break, and else of the break itself. -/

namespace TurtleArt.Json

structure Decoder (α : Type) where
  complete : Value → Except Rejection α
  fragment : Fragment → Rejection

namespace Decoder

variable {α β σ : Type}

def read (d : Decoder α) (text : String) : Except Rejection α :=
  match scan text.toList with
  | .complete v trailing => do
    let a ← d.complete v
    if trailing then .error (.breach .malformed) else .ok a
  | .broken f => .error (d.fragment f)

def map (f : α → β) (d : Decoder α) : Decoder β where
  complete v := f <$> d.complete v
  fragment := d.fragment

def rejectionOr (x : Except Rejection α) (r : α → Rejection) : Rejection :=
  match x with
  | .ok a => r a
  | .error e => e

def ignored (a : α) : Decoder α where
  complete _ := .ok a
  fragment f := .breach f.ignoredBreach

def string : Decoder String where
  complete
    | .string t => t.read
    | v => .error (v.refuse "a string")
  fragment := Fragment.refuse "a string"

def word : Decoder Word :=
  string.map String.toList

def singleton (s : String) : Except Rejection Char :=
  match s.toList with
  | [c] => .ok c
  | _ => .error (.mismatch (.invalidValue (.string s) "a character"))

def char : Decoder Char where
  complete
    | .string t => do singleton (← t.read)
    | v => .error (v.refuse "a character")
  fragment := Fragment.refuse "a character"

def int32 : Decoder Int32 where
  complete
    | .number n =>
      match n.number? with
      | some (.integer i) =>
        if Int32.minValue.toInt ≤ i ∧ i ≤ Int32.maxValue.toInt then .ok (Int32.ofInt i)
        else .error (.mismatch (.invalidValue (.number (.integer i)) "i32"))
      | some found => .error (.mismatch (.invalidType (.number found) "i32"))
      | none => .error (.breach .malformed)
    | v => .error (v.refuse "i32")
  fragment := Fragment.refuse "i32"

def null : Decoder Unit where
  complete
    | .null => .ok ()
    | v => .error (v.refuse "unit")
  fragment := Fragment.refuse "unit"

def list (d : Decoder α) : Decoder (List α) where
  complete
    | .array items => items.mapM d.complete
    | v => .error (v.refuse "a sequence")
  fragment
    | .array items b => rejectionOr (items.mapM d.complete) fun _ => .breach b
    | .item items f => rejectionOr (items.mapM d.complete) fun _ => d.fragment f
    | f => f.refuse "a sequence"

def symbolSet : Decoder SymbolSet :=
  char.list.map SymbolSet.ofList

/-- Objects, read member by member: what has been read so far and the next key decide how the
value of that key is read. -/
def members (expected : String) (start : σ) (next : σ → Text → Except Rejection (Decoder σ)) :
    Decoder σ where
  complete
    | .object ms => ms.foldlM step start
    | v => .error (v.refuse expected)
  fragment
    | .object ms b | .keyless ms b => rejectionOr (ms.foldlM step start) fun _ => .breach b
    | .key ms t b => rejectionOr (ms.foldlM step start) fun _ => .breach (t.breach b)
    | .value ms key f =>
      rejectionOr (do next (← ms.foldlM step start) key) fun d => d.fragment f
    | f => f.refuse expected
where
  step (s : σ) (m : Member) : Except Rejection σ := do
    let d ← next s m.1
    d.complete m.2

/-- An object with one-character keys. Of two members with one key the later counts. -/
def symbolMap (d : Decoder α) : Decoder (SymbolMap α) :=
  members "a map" ∅ fun m key => do
    let c ← singleton (← key.read)
    return d.map (m.insert c ·)

end Decoder
end TurtleArt.Json
