/-
# Tool: check files

Checks a header against a source, or on its own when the source is left empty, and
answers with a diagnostic or with a report.
-/
import PrototypeOrder.FileSystem.Check
import PrototypeOrder.Report
import PrototypeOrder.Diagnostic.Basic
import PrototypeOrder.Tool.Format

namespace PrototypeOrder.Tool

/-- The source that is meant: an empty one means the header. -/
def sourceOrHeader (header source : String) : String := if source = "" then header else source

/-- The outcomes of a check that are reported. -/
inductive Outcome where
  | passed
  | violated (v : Violation)
  | unreadable (e : IoError)
deriving DecidableEq, Repr

/-- A failure that is reported, as an outcome. -/
def Outcome.of : Except FileFailure Unit → Except FileFailure Outcome
  | .ok () => .ok .passed
  | .error (.check (.violation v)) => .ok (.violated v)
  | .error (.read (.io e)) => .ok (.unreadable e)
  | .error f => .error f

/-- An outcome in words. -/
def Outcome.text (header source : String) : Outcome → String
  | .passed =>
    s!"OK: {header} ({(Mode.ofNames header source).name} mode) follows the declaration order."
  | .violated v => Diagnostic.format v
  | .unreadable e => s!"Error: {e.brief}"

/-- An outcome as a report. -/
def Outcome.report (header source : String) : Outcome → PairReport
  | .passed => .passed header source
  | .violated v => .violated header source v
  | .unreadable e => .unreadable header source e.brief

/-- An outcome in a format. -/
def Outcome.render (header source : String) (format : Format) (o : Outcome) : String :=
  match format with
  | .text => o.text header source
  | .json => (o.report header source).json.render .unicode

/-- Checks files and answers in the format with the given name. -/
def checkFiles (parse : Bytes → Node) (read : Reader) (header source format : String) :
    Logged (Except FileFailure String) :=
  match Format.ofName? format with
  | none => .pure (.ok unknownFormat)
  | some format =>
    let source := sourceOrHeader header source
    let verdict := validateFiles parse read header (some source)
    ⟨verdict.log, (Outcome.of verdict.value).map (Outcome.render header source format)⟩

end PrototypeOrder.Tool
