import TurtleArt.Preset

/-! The command line. Options are taken from left to right; asking for the version or for help
ends the reading, and nothing but options is accepted. The value of an option is the next argument,
or follows directly behind its letter or behind an equals sign. No option may be given twice, and a
preset and a definition file exclude each other. -/

namespace TurtleArt.Cli

inductive Source
  | gallery
  | preset (p : Preset)
  | file (path : String)
  deriving DecidableEq

structure Invocation where
  source : Source
  recursions : Nat
  deriving DecidableEq

inductive Request
  | run (i : Invocation)
  | version
  | help
  | misuse
  deriving DecidableEq

inductive Key
  | fractal
  | definition
  | recursions
  deriving DecidableEq

structure Options where
  fractal : Option Preset := none
  definition : Option String := none
  recursions : Option Nat := none

def defaultRecursions : Nat := 4

/-- A count in decimal, of at most 64 bits; a plus sign may stand before it. -/
def count? (value : List Char) : Option Nat :=
  let digits :=
    match value with
    | '+' :: digits => digits
    | digits => digits
  if digits.isEmpty ∨ !digits.all Char.isDigit then none
  else
    let n := digits.foldl (fun n c => n * 10 + (c.toNat - '0'.toNat)) 0
    if n < 0x10000000000000000 then some n else none

namespace Options

def set? (o : Options) (value : List Char) : Key → Option Options
  | .fractal => do
    guard o.fractal.isNone
    let p ← Preset.ofName? (String.ofList value)
    return { o with fractal := p }
  | .definition => do
    guard (o.definition.isNone && !value.isEmpty)
    return { o with definition := String.ofList value }
  | .recursions => do
    guard o.recursions.isNone
    let n ← count? value
    return { o with recursions := n }

def request (o : Options) : Request :=
  let run (source : Source) := Request.run ⟨source, o.recursions.getD defaultRecursions⟩
  match o.fractal, o.definition with
  | some _, some _ => .misuse
  | some p, none => run (.preset p)
  | none, some path => run (.file path)
  | none, none => run .gallery

end Options

inductive Argument
  | option (key : Key) (value : Option (List Char))
  | version
  | help
  | endOfOptions
  | unknown
  deriving DecidableEq

namespace Argument

def key? (name : List Char) : Option Key :=
  [("fractal", Key.fractal), ("definition", .definition), ("recursions", .recursions)].lookup
    (String.ofList name)

def long (text : List Char) : Argument :=
  let name := text.takeWhile (· ≠ '=')
  let value := (text.dropWhile (· ≠ '=')).tail?
  match key? name, value with
  | some key, value => option key value
  | none, some _ => unknown
  | none, none =>
    if name = "version".toList then version
    else if name = "help".toList then help
    else unknown

def attached : List Char → Option (List Char)
  | [] => none
  | '=' :: value => some value
  | value => some value

def short : List Char → Argument
  | 'f' :: rest => option .fractal (attached rest)
  | 'd' :: rest => option .definition (attached rest)
  | 'r' :: rest => option .recursions (attached rest)
  | 'V' :: _ => version
  | 'h' :: _ => help
  | _ => unknown

def read (text : String) : Argument :=
  match text.toList with
  | ['-', '-'] => endOfOptions
  | '-' :: '-' :: text => long text
  | '-' :: text => short text
  | _ => unknown

end Argument

def isValue (text : String) : Bool :=
  text = "-" || text.toList.head? ≠ some '-'

namespace Request

def ofOptions (o : Options) : List String → Request
  | [] => o.request
  | text :: rest =>
    match Argument.read text with
    | .version => version
    | .help => help
    | .unknown => misuse
    | .endOfOptions => if rest.isEmpty then o.request else misuse
    | .option key (some value) =>
      match o.set? value key with
      | some o => ofOptions o rest
      | none => misuse
    | .option key none =>
      match rest with
      | [] => misuse
      | value :: rest =>
        if isValue value then
          match o.set? value.toList key with
          | some o => ofOptions o rest
          | none => misuse
        else misuse

def ofArguments (arguments : List String) : Request :=
  ofOptions {} arguments

end Request
end TurtleArt.Cli
