/-
# Tool: check a workspace

Checks every pair below a directory and answers with a table or with the reports.
-/
import PrototypeOrder.FileSystem.Workspace
import PrototypeOrder.Tool.Format

namespace PrototypeOrder.Tool

/-- The verdict on a pair, in a cell of the table. -/
def verdictCell (r : PairReport) : String :=
  if r.ok then "ok"
  else
    match r.violation with
    | some v =>
      match v.locations with
      | [] => s!"**{v.message}**"
      | first :: _ => s!"**{v.message}** at {first.file}:{first.line}"
    | none => "error: " ++ r.error.getD ""

/-- The row of a pair. -/
def pairRow (r : PairReport) : String := s!"| {r.header} | {r.source} | {verdictCell r} |\n"

/-- The table of all pairs, if there are any. -/
def pairTable (reports : List PairReport) : String :=
  match reports with
  | [] => ""
  | _ =>
    "\n| Header | Source | Result |\n|--------|--------|--------|\n" ++
      "".intercalate (reports.map pairRow)

/-- The answer in text. -/
def workspaceText (root : String) (w : WorkspaceCheck) : String :=
  let passed := (w.reports.filter PairReport.ok).length
  let checked := w.reports.length
  let failed := checked - passed
  let unpaired := w.discovery.unpaired.length
  s!"## Declaration order: {root}\n\n| Pairs checked | {checked} |\n|---|---|\n" ++
    s!"| Passed | {passed} |\n| Failed | {failed} |\n" ++
    s!"| Unpaired headers (skipped) | {unpaired} |\n" ++ pairTable w.reports

/-- The answer in a format. -/
def renderWorkspace (root : String) (format : Format) (w : WorkspaceCheck) : String :=
  match format with
  | .text => workspaceText root w
  | .json => (JsonValue.list (w.reports.map PairReport.json)).render .ascii

/-- Checks every pair below a directory and answers in the format with the given name. -/
def checkWorkspace (fs : FileSystem) (parse : Bytes → Node) (root format : String) :
    Logged (Except FileFailure String) :=
  match Format.ofName? format with
  | none => .pure (.ok unknownFormat)
  | some format =>
    if fs.isDirectory root then
      let w := fs.checkWorkspace parse root
      ⟨w.log, w.value.map (renderWorkspace root format)⟩
    else .pure (.ok s!"Error: Workspace root not found at {root}")

end PrototypeOrder.Tool
