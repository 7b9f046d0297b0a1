import TurtleArt.Json.Value

/-! Reading JSON one character at a time. The state is the place reached in the text, together
with the arrays and objects still open around it, the innermost first. Lists within a state hold
the latest element first. -/

namespace TurtleArt.Json

def isSpace (c : Char) : Bool :=
  c = ' ' || c = '\t' || c = '\n' || c = '\r'

def digit? (c : Char) : Option Nat :=
  if c.isDigit then some (c.toNat - '0'.toNat) else none

def hexDigit? (c : Char) : Option Nat :=
  if c.isDigit then some (c.toNat - '0'.toNat)
  else if 'a' ≤ c ∧ c ≤ 'f' then some (c.toNat - 'a'.toNat + 10)
  else if 'A' ≤ c ∧ c ≤ 'F' then some (c.toNat - 'A'.toNat + 10)
  else none

inductive Advance (α : Type)
  | more (a : α)
  /-- The literal ends with this character. -/
  | done
  /-- The literal ended before this character. -/
  | over
  | bad

/-! ### String literals -/

inductive TextPlace
  | plain
  | escape
  /-- After `\u`, with the number of bytes read since then, and their value if all of them are
  hexadecimal digits. -/
  | unit (bytes : Nat) (value : Option Nat)

structure OpenText where
  pieces : List Piece := []
  place : TextPlace := .plain

namespace OpenText

def text (t : OpenText) : Text :=
  t.pieces.reverse

def add (t : OpenText) (p : Piece) : Advance OpenText :=
  .more ⟨p :: t.pieces, .plain⟩

def escape? : Char → Option Char
  | '"' => some '"'
  | '\\' => some '\\'
  | '/' => some '/'
  | 'b' => some '\x08'
  | 'f' => some '\x0c'
  | 'n' => some '\n'
  | 'r' => some '\r'
  | 't' => some '\t'
  | _ => none

/-- A code unit takes four bytes of text. Fewer are too short a text, whatever they are. -/
def next (t : OpenText) (c : Char) : Advance OpenText :=
  match t.place with
  | .plain =>
    if c = '"' then .done
    else if c = '\\' then .more { t with place := .escape }
    else if c.toNat < 0x20 then .bad
    else t.add (.char c)
  | .escape =>
    if c = 'u' then .more { t with place := .unit 0 (some 0) }
    else
      match escape? c with
      | some e => t.add (.char e)
      | none => .bad
  | .unit bytes value =>
    let bytes := bytes + c.utf8Size
    let value := do return 16 * (← value) + (← hexDigit? c)
    if bytes < 4 then .more { t with place := .unit bytes value }
    else
      match value with
      | some unit => t.add (.ofUnit unit)
      | none => .bad

end OpenText

/-! ### Number literals -/

/-- A place in a number literal, named for what was read last. -/
inductive NumeralPlace
  | sign
  | zero
  | whole
  | point
  | fraction
  | mark
  | exponentSign
  | exponent

structure OpenNumeral where
  negative : Bool
  whole : List Nat := []
  fraction : List Nat := []
  exponent : Option (Bool × List Nat) := none
  place : NumeralPlace

namespace OpenNumeral

def numeral (n : OpenNumeral) : Numeral where
  negative := n.negative
  whole := n.whole.reverse
  fraction := n.fraction.reverse
  exponent := n.exponent.map fun (negative, digits) => (negative, digits.reverse)

def canEnd (n : OpenNumeral) : Bool :=
  match n.place with
  | .zero | .whole | .fraction | .exponent => true
  | .sign | .point | .mark | .exponentSign => false

def first (negative : Bool) (d : Nat) : OpenNumeral where
  negative
  whole := [d]
  place := if d = 0 then .zero else .whole

def addFraction (n : OpenNumeral) (d : Nat) : OpenNumeral :=
  { n with fraction := d :: n.fraction, place := .fraction }

def addExponent (n : OpenNumeral) (d : Nat) : OpenNumeral :=
  { n with
    exponent := n.exponent.map fun (negative, digits) => (negative, d :: digits)
    place := .exponent }

def leaveWhole (n : OpenNumeral) (c : Char) : Advance OpenNumeral :=
  if c = '.' then .more { n with place := .point }
  else if c = 'e' ∨ c = 'E' then .more { n with exponent := some (false, []), place := .mark }
  else .over

def leaveFraction (n : OpenNumeral) (c : Char) : Advance OpenNumeral :=
  if c = 'e' ∨ c = 'E' then .more { n with exponent := some (false, []), place := .mark }
  else .over

def next (n : OpenNumeral) (c : Char) : Advance OpenNumeral :=
  match n.place, digit? c with
  | .sign, some d => .more (first n.negative d)
  | .sign, none => .bad
  | .zero, some _ => .bad
  | .zero, none => n.leaveWhole c
  | .whole, some d => .more { n with whole := d :: n.whole }
  | .whole, none => n.leaveWhole c
  | .point, some d | .fraction, some d => .more (n.addFraction d)
  | .point, none => .bad
  | .fraction, none => n.leaveFraction c
  | .mark, some d | .exponentSign, some d | .exponent, some d => .more (n.addExponent d)
  | .mark, none =>
    if c = '+' then .more { n with place := .exponentSign }
    else if c = '-' then .more { n with exponent := some (true, []), place := .exponentSign }
    else .bad
  | .exponentSign, none => .bad
  | .exponent, none => .over

end OpenNumeral

/-! ### Values -/

inductive Frame
  | item (before : List Value)
  | value (before : List Member) (key : Text)

inductive State
  | due (frames : List Frame)
  | keyDue (before : List Member) (frames : List Frame)
  /-- Within `null`, `true` or `false`, with the letters still due. -/
  | literal (letter : Char) (letters : List Char) (value : Value) (frames : List Frame)
  | numeral (n : OpenNumeral) (frames : List Frame)
  | string (t : OpenText) (frames : List Frame)
  | keyText (t : OpenText) (before : List Member) (frames : List Frame)
  | itemRead (items : List Value) (frames : List Frame)
  | keyRead (before : List Member) (key : Text) (frames : List Frame)
  | memberRead (members : List Member) (frames : List Frame)
  | closed (value : Value)
  /-- Something other than a blank came after the outermost value. -/
  | trailing (value : Value)
  | broken (fragment : Fragment)

namespace State

def enclose (f : Fragment) : Frame → Fragment
  | .item before => .item before.reverse f
  | .value before key => .value before.reverse key f

def stop (f : Fragment) (frames : List Frame) : State :=
  broken (frames.foldl enclose f)

def complete (v : Value) : List Frame → State
  | [] => closed v
  | .item before :: frames => itemRead (v :: before) frames
  | .value before key :: frames => memberRead ((key, v) :: before) frames

def enter (frames : List Frame) (c : Char) : State :=
  match c with
  | '"' => string {} frames
  | '[' => due (.item [] :: frames)
  | '\x7b' => keyDue [] frames
  | 'n' => literal 'u' ['l', 'l'] .null frames
  | 't' => literal 'r' ['u', 'e'] (.bool true) frames
  | 'f' => literal 'a' ['l', 's', 'e'] (.bool false) frames
  | '-' => numeral { negative := true, place := .sign } frames
  | c =>
    match digit? c, c, frames with
    | some d, _, _ => numeral (.first false d) frames
    | none, ']', .item [] :: outer => complete (.array []) outer
    | none, _, _ => stop (.missing .malformed) frames

def enterKey (before : List Member) (frames : List Frame) (c : Char) : State :=
  match c, before with
  | '"', _ => keyText {} before frames
  | '\x7d', [] => complete (.object []) frames
  | _, _ => stop (.keyless before.reverse .malformed) frames

def separate : State → Char → State
  | itemRead items frames, c =>
    if isSpace c then itemRead items frames
    else if c = ',' then due (.item items :: frames)
    else if c = ']' then complete (.array items.reverse) frames
    else stop (.array items.reverse .malformed) frames
  | keyRead before key frames, c =>
    if isSpace c then keyRead before key frames
    else if c = ':' then due (.value before key :: frames)
    else stop (.value before.reverse key (.missing .malformed)) frames
  | memberRead members frames, c =>
    if isSpace c then memberRead members frames
    else if c = ',' then keyDue members frames
    else if c = '\x7d' then complete (.object members.reverse) frames
    else stop (.object members.reverse .malformed) frames
  | closed v, c => if isSpace c then closed v else trailing v
  | s, _ => s

def step (s : State) (c : Char) : State :=
  match s with
  | due frames => if isSpace c then due frames else enter frames c
  | keyDue before frames =>
    if isSpace c then keyDue before frames else enterKey before frames c
  | literal letter letters v frames =>
    if c = letter then
      match letters with
      | [] => complete v frames
      | letter :: letters => literal letter letters v frames
    else stop (.literal .malformed) frames
  | numeral n frames =>
    match n.next c with
    | .more n => numeral n frames
    | .over => (complete (.number n.numeral) frames).separate c
    | .done | .bad => stop (.numeral .malformed) frames
  | string t frames =>
    match t.next c with
    | .more t => string t frames
    | .done => complete (.string t.text) frames
    | .over | .bad => stop (.string t.text .malformed) frames
  | keyText t before frames =>
    match t.next c with
    | .more t => keyText t before frames
    | .done => keyRead before t.text frames
    | .over | .bad => stop (.key before.reverse t.text .malformed) frames
  | s => s.separate c

/-- A number at the end of a text is complete if it may end there. -/
def settle : State → State
  | numeral n frames =>
    if n.canEnd then complete (.number n.numeral) frames
    else stop (.numeral .truncated) frames
  | s => s

def document (s : State) : Document :=
  match s.settle with
  | closed v => .complete v false
  | trailing v => .complete v true
  | broken f => .broken f
  | due frames => cut (.missing .truncated) frames
  | keyDue before frames => cut (.keyless before.reverse .truncated) frames
  | literal _ _ _ frames => cut (.literal .truncated) frames
  | numeral _ frames => cut (.numeral .truncated) frames
  | string t frames => cut (.string t.text .truncated) frames
  | keyText t before frames => cut (.key before.reverse t.text .truncated) frames
  | itemRead items frames => cut (.array items.reverse .truncated) frames
  | keyRead before key frames => cut (.value before.reverse key (.missing .truncated)) frames
  | memberRead members frames => cut (.object members.reverse .truncated) frames
where
  cut (f : Fragment) (frames : List Frame) : Document := .broken (frames.foldl enclose f)

def run (s : State) (text : List Char) : State :=
  text.foldl step s

@[simp] theorem run_nil (s : State) : s.run [] = s := rfl

@[simp] theorem run_cons (s : State) (c : Char) (text : List Char) :
    s.run (c :: text) = (s.step c).run text := rfl

@[simp] theorem run_append (s : State) (text more : List Char) :
    s.run (text ++ more) = (s.run text).run more :=
  List.foldl_append

end State

def scan (text : List Char) : Document :=
  ((State.due []).run text).document

end TurtleArt.Json
