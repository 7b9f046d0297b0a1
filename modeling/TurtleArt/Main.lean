import TurtleArt.Cli.Program

/-! The executable: it reads the definition file, if one is named, and writes the outcome. -/

namespace TurtleArt.Cli

def helpText : String :=
  "Usage: lsystem-ascii [--fractal <NAME> | --definition <FILE>] [--recursions <COUNT>]\n\n" ++
  "  -f, --fractal <NAME>       binary-tree, dragon-curve or koch-curve\n" ++
  "  -d, --definition <FILE>    a definition in JSON\n" ++
  "  -r, --recursions <COUNT>   how often the grammar is applied (4 unless given)\n" ++
  "  -h, --help                 print this text\n" ++
  "  -V, --version              print the version\n"

/-- The number of a system error, which may be given negated. -/
def systemCode (code : UInt32) : Nat :=
  code.toInt32.toInt.natAbs

def ioErrorOf : IO.Error → IoError
  | .noFileOrDirectory _ code _ => .system (systemCode code) "No such file or directory"
  | .permissionDenied _ code _ => .system (systemCode code) "Permission denied"
  | .inappropriateType _ code details => .system (systemCode code) details.capitalize
  | .otherError code details => .system (systemCode code) details.capitalize
  | e => .system 0 (toString e)

def readFile (path : String) : IO (Except IoError ByteArray) := do
  try
    return .ok (← IO.FS.readBinFile path)
  catch e =>
    return .error (ioErrorOf e)

def runInvocation (i : Invocation) : IO UInt32 := do
  let contents ←
    match i.source with
    | .file path => readFile path
    | _ => pure (.ok .empty)
  let outcome := i.run fun _ => contents
  let stdout ← IO.getStdout
  stdout.write ⟨outcome.output.toArray⟩
  stdout.flush
  IO.eprint outcome.diagnostic
  return outcome.exitCode.toUInt32

def serve (arguments : List String) : IO UInt32 :=
  match Request.ofArguments arguments with
  | .run i => runInvocation i
  | .version => do
    IO.print versionText
    return 0
  | .help => do
    IO.print helpText
    return 0
  | .misuse => do
    IO.eprint ("error: unexpected arguments\n\n" ++ helpText)
    return 2

end TurtleArt.Cli

def main (arguments : List String) : IO UInt32 :=
  TurtleArt.Cli.serve arguments
