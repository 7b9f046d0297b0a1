import TurtleArt.Json.Decoder

/-! Records: objects with fixed field names, which may also be written as arrays in the order of
the fields. A field with a default may be left out. -/

namespace TurtleArt.Json

inductive Fields : List Type → Type 1
  | nil : Fields []
  | cons {β : Type} {βs : List Type} (name : String) (decoder : Decoder β)
      (default : Option β) (rest : Fields βs) : Fields (β :: βs)

def Slots : List Type → Type
  | [] => Unit
  | β :: βs => Option β × Slots βs

def Values : List Type → Type
  | [] => Unit
  | β :: βs => β × Values βs

namespace Fields

variable {α : Type} {βs : List Type}

def count : {βs : List Type} → Fields βs → Nat
  | _, nil => 0
  | _, cons _ _ _ rest => rest.count + 1

def vacant : {βs : List Type} → Fields βs → Slots βs
  | _, nil => ()
  | _, cons _ _ _ rest => (none, rest.vacant)

def names : {βs : List Type} → Fields βs → List String
  | _, nil => []
  | _, cons name _ _ rest => name :: rest.names

/-- How the value of a key is read into the slots. A second value for one field is refused; a
key that names no field is passed over. -/
def select : {βs : List Type} → Fields βs → Slots βs → String →
    Except Rejection (Decoder (Slots βs))
  | _, nil, _, _ => .ok (.ignored ())
  | _, cons name d _ rest, (slot, slots), key =>
    if key = name then
      if slot.isSome then .error (.mismatch (.duplicateField name))
      else .ok (d.map fun b => (some b, slots))
    else do
      let d ← rest.select slots key
      return d.map fun slots => (slot, slots)

/-- The values of all fields, or the place and the name of the first that lacks one. -/
def collect : {βs : List Type} → Fields βs → Slots βs → Except (Nat × String) (Values βs)
  | _, nil, _ => .ok ()
  | _, cons name _ default rest, (slot, slots) =>
    match slot <|> default with
    | none => .error (0, name)
    | some b =>
      match rest.collect slots with
      | .ok bs => .ok (b, bs)
      | .error (place, name) => .error (place + 1, name)

def fill : {βs : List Type} → Fields βs → List Value → Except Rejection (Slots βs)
  | _, nil, [] => .ok ()
  | _, nil, _ :: _ => .error (.breach .malformed)
  | _, fields@(cons ..), [] => .ok fields.vacant
  | _, cons _ d _ rest, v :: items => do
    let b ← d.complete v
    let slots ← rest.fill items
    return (some b, slots)

/-- What the field at a place says about a value broken off; past the last field nothing may
follow. -/
def fragmentAt : {βs : List Type} → Fields βs → Nat → Fragment → Rejection
  | _, nil, _, _ => .breach .malformed
  | _, cons _ d _ _, 0, f => d.fragment f
  | _, cons _ _ _ rest, n + 1, f => rest.fragmentAt n f

def positional (fields : Fields βs) (expected : String) : Decoder (Values βs) where
  complete
    | .array items => do
      let slots ← fields.fill items
      match fields.collect slots with
      | .ok bs => .ok bs
      | .error (place, _) => .error (.mismatch (.invalidLength place expected))
    | v => .error (v.refuse expected)
  fragment
    | .array items b => Decoder.rejectionOr (fields.fill items) fun _ => .breach b
    | .item items f =>
      Decoder.rejectionOr (fields.fill items) fun _ => fields.fragmentAt items.length f
    | f => f.refuse expected

def byName (fields : Fields βs) (expected : String) : Decoder (Values βs) where
  complete v := do
    let slots ← slots.complete v
    match fields.collect slots with
    | .ok bs => .ok bs
    | .error (_, name) => .error (.mismatch (.missingField name))
  fragment := slots.fragment
where
  slots : Decoder (Slots βs) :=
    .members expected fields.vacant fun slots key => do
      fields.select slots (← key.read)

def record (fields : Fields βs) (title : String) (build : Values βs → α) : Decoder α :=
  Decoder.map build
    { complete
        | v@(.array _) => (fields.positional lengthText).complete v
        | v => (fields.byName title).complete v
      fragment
        | f@(.array ..) | f@(.item ..) => (fields.positional lengthText).fragment f
        | f => (fields.byName title).fragment f }
where
  lengthText : String :=
    title ++ " with " ++ toString fields.count ++
      (if fields.count = 1 then " element" else " elements")

end Fields
end TurtleArt.Json
