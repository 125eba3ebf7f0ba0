/-
# The command line

    <program> header.h              checks a file on its own
    <program> header.h source.c     checks a header against a source

The exit status is 0 when the files follow the declaration order, and 1 otherwise.  How
much of the record is shown is set by a word, the name of a level.
-/
import PrototypeOrder.FileSystem.Check
import PrototypeOrder.Diagnostic.Terminal

namespace PrototypeOrder

namespace CommandLine

/-! ## What is recorded -/

/-- The environment variable that sets how much of the record is shown. -/
def levelVariable : String := "DECLORDER_LOG_LEVEL"

/-- The threshold unless one is set. -/
def defaultThreshold : Nat := 30

/-- The names of thresholds. -/
def thresholds : List (String × Nat) :=
  [("CRITICAL", 50), ("FATAL", 50), ("ERROR", 40), ("WARNING", 30), ("WARN", 30), ("INFO", 20),
    ("DEBUG", 10), ("NOTSET", 0)]

/-- The name of the format of records, which is looked up among the thresholds. -/
def formatName : String := "BASIC_FORMAT"

/-- The format of records, which is no threshold. -/
def recordFormat : String := "%(levelname)s:%(name)s:%(message)s"

/-- A letter in upper case.  Of the letters outside ASCII only the two count whose upper
case is a letter of ASCII. -/
def upperLetter (c : Char) : Char :=
  if c = 'ı' then 'I' else if c = 'ſ' then 'S' else c.toUpper

/-- A word in upper case. -/
def upper (s : String) : String := String.ofList (s.toList.map upperLetter)

/-- A setting that names something which is no threshold. -/
structure UnknownLevel where
  setting : String
deriving DecidableEq, Repr

/-- What is wrong, in words. -/
def UnknownLevel.message (e : UnknownLevel) : String :=
  s!"Unknown level: {Text.quoted e.setting}"

/-- The threshold that a word sets, in any case; an unknown word sets the default. -/
def threshold (setting? : Option String) : Except UnknownLevel Nat :=
  match setting? with
  | none => .ok defaultThreshold
  | some word =>
    if upper word = formatName then .error ⟨recordFormat⟩
    else .ok ((List.lookup (upper word) thresholds).getD defaultThreshold)

/-! ## Running -/

/-- The name of the program where none is given. -/
def programName : String := "declorder"

/-- What is asked for on the command line. -/
inductive Request where
  | validate (header : String) (source? : Option String)
  /-- the number of arguments is wrong -/
  | usage (program : String)
deriving DecidableEq, Repr

/-- Reads arguments, of which the first is the program. -/
def Request.ofArguments : List String → Request
  | [_, header] => validate header none
  | [_, header, source] => validate header (some source)
  | [] => usage programName
  | program :: _ => usage program

/-- How to call the program. -/
def usageText (program : String) : String := s!"Usage: {program} file [file]"

/-- What a run leaves: an exit status and what is printed. -/
structure Exit where
  status : Nat
  output : String
deriving DecidableEq, Repr

/-- A run that found nothing to report. -/
def Exit.success : Exit := ⟨0, ""⟩

/-- A run that reports something. -/
def Exit.report (style : Diagnostic.Style) (colour : Bool) (pieces : List Diagnostic.Piece) :
    Exit :=
  ⟨1, Diagnostic.shown style colour pieces⟩

/-- Runs the program.  Violations and files that cannot be read are reported, any other
failure is passed on. -/
def run (parse : Bytes → Node) (read : Reader) (arguments : List String)
    (style : Diagnostic.Style) (colour : Bool) : Logged (Except FileFailure Exit) :=
  match Request.ofArguments arguments with
  | .usage program => .pure (.ok (.report style colour [Diagnostic.bare (usageText program)]))
  | .validate header source? =>
    let verdict := validateFiles parse read header source?
    match verdict.value with
    | .ok () => ⟨verdict.log, .ok .success⟩
    | .error (.check (.violation v)) =>
      ⟨verdict.log, .ok (.report style colour (Diagnostic.ofViolation v))⟩
    | .error (.read (.io e)) =>
      ⟨verdict.log ++ [.ioFailure], .ok (.report style colour (Diagnostic.ofMessage e.brief))⟩
    | .error f => ⟨verdict.log, .error f⟩

end CommandLine

end PrototypeOrder
