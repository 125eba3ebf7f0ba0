/-
# The program

Reads the files named on the command line, runs the check on them and shows its outcome.
-/
import PrototypeOrder.CommandLine
import PrototypeOrder.C.Outline

namespace PrototypeOrder.CommandLine

/-- The code and the text that come with an error. -/
def codeAndText : IO.Error → UInt32 × String
  | .alreadyExists _ code text | .interrupted _ code text | .noFileOrDirectory _ code text
  | .invalidArgument _ code text | .permissionDenied _ code text
  | .resourceExhausted _ code text | .inappropriateType _ code text
  | .noSuchThing _ code text => (code, text)
  | .otherError code text | .resourceBusy code text | .resourceVanished code text
  | .unsupportedOperation code text | .hardwareFault code text
  | .unsatisfiedConstraints code text | .illegalOperation code text | .protocolError code text
  | .timeExpired code text => (code, text)
  | .unexpectedEof => (0, "end of file")
  | .userError text => (0, text)

/-- The error for a path that cannot be opened.  A code may be the negative of its number; a cause
that is known is told in its own words. -/
def errorAt (path : String) (e : IO.Error) : IoError :=
  let (code, text) := codeAndText e
  let number : Int := min code.toNat (-code).toNat
  match Cause.ofNumber? number with
  | some cause => cause.error path
  | none => ⟨number, text.capitalize, some path⟩

/-- Reads a file from disk. -/
def readFromDisk (path : String) : IO (Except ReadError Bytes) := do
  try
    let contents ← IO.FS.readBinFile path
    return .ok contents.toList
  catch e => return .error (.io (errorAt path e))

/-- Reading from files that have been read before. -/
def readerOf (files : List (String × Except ReadError Bytes)) : Reader := fun path =>
  (files.lookup path).getD (.error (.io (Cause.notFound.error path)))

/-- Shows the part of a record that reaches a threshold. -/
def showRecord (threshold : Nat) (log : List Event) : IO Unit :=
  for event in log do
    if threshold ≤ event.level.number then
      IO.eprintln s!"{event.level.name} {event.message}"

/-- Runs the program on the arguments after its name and gives the exit status. -/
def runOnDisk (arguments : List String) : IO UInt32 := do
  match threshold (← IO.getEnv levelVariable) with
  | .error e =>
    IO.eprintln e.message
    return 1
  | .ok level =>
    let files ← arguments.mapM fun path => do return (path, ← readFromDisk path)
    let stdout ← IO.getStdout
    let result :=
      run C.parse (readerOf files) (programName :: arguments) .standard (← stdout.isTty)
    showRecord level result.log
    match result.value with
    | .ok exit =>
      stdout.putStr exit.output
      return exit.status.toUInt32
    | .error failure =>
      IO.eprintln failure.message
      return 1

end PrototypeOrder.CommandLine

/-- Runs the program. -/
def main (arguments : List String) : IO UInt32 := PrototypeOrder.CommandLine.runOnDisk arguments
