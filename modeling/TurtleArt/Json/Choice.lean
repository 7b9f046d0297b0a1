import TurtleArt.Json.Decoder

/-! Choices between named variants. A variant is written as its name, or as an object whose only
member has that name as its key. -/

namespace TurtleArt.Json

inductive Payload (α : Type)
  | unit (a : α)
  | body (d : Decoder α)

abbrev Choice (α : Type) := List (String × Payload α)

namespace Payload

variable {α : Type}

def decoder : Payload α → Decoder α
  | unit a => Decoder.null.map fun _ => a
  | body d => d

/-- The value of a variant given by its name alone. -/
def bare : Payload α → Except Rejection α
  | unit a => .ok a
  | body _ => .error (.mismatch (.invalidType .unitVariant "struct variant"))

end Payload

namespace Choice

variable {α : Type}

def ofNames (variants : List (String × α)) : Choice α :=
  variants.map fun (name, a) => (name, .unit a)

def select (c : Choice α) (t : Text) : Except Rejection (Payload α) := do
  let name ← t.read
  match c.lookup name with
  | some payload => .ok payload
  | none => .error (.mismatch (.unknownVariant name (c.map Prod.fst)))

def member (c : Choice α) (m : Member) : Except Rejection α := do
  let payload ← c.select m.1
  payload.decoder.complete m.2

/-- The rejection of an object that holds some members already: the first may be a variant, a
second one is malformed. -/
def afterMembers (c : Choice α) (m : Member) (rest : List Member) (b : Breach) : Rejection :=
  Decoder.rejectionOr (c.member m) fun _ => .breach (if rest.isEmpty then b else .malformed)

def decoder (c : Choice α) : Decoder α where
  complete
    | .string t => do (← c.select t).bare
    | .object [m] => c.member m
    | .object (m :: _) => do
      let _ ← c.member m
      .error (.breach .malformed)
    | _ => .error (.breach .malformed)
  -- A name has to begin where the first key is due: what else begins there is malformed, also where
  -- it begins a value of another type.
  fragment
    | .missing b => .breach b
    | .string t b => .breach (t.breach b)
    | .object (m :: rest) b => c.afterMembers m rest b
    | .keyless [] b => .breach b
    | .key [] t b => .breach (t.breach b)
    | .value [] key f =>
      Decoder.rejectionOr (c.select key) fun payload => payload.decoder.fragment f
    | .keyless (m :: rest) _ | .key (m :: rest) _ _ | .value (m :: rest) _ _ =>
      c.afterMembers m rest .malformed
    | _ => .breach .malformed

end Choice
end TurtleArt.Json
