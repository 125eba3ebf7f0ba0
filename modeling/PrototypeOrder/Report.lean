/-
# Reports

The outcome of a check in a form for programs: a violation with its places, and the
verdict on a pair of files.
-/
import PrototypeOrder.Order.Violation
import PrototypeOrder.Order.Mode
import PrototypeOrder.Text.Json

namespace PrototypeOrder

/-- A place, with line and column counted from one. -/
structure LocationReport where
  file : String
  line : Int
  column : Int
  text : String
deriving DecidableEq, Repr

/-- A violation. -/
structure ViolationReport where
  kind : String
  message : String
  locations : List LocationReport
  file : Option String
deriving DecidableEq, Repr

/-- The verdict on a pair of files; `error` tells why they could not be read. -/
structure PairReport where
  header : String
  source : String
  mode : Mode
  ok : Bool
  violation : Option ViolationReport
  error : Option String
deriving DecidableEq, Repr

/-- The report of a place. -/
def Location.report (l : Location) : LocationReport := ⟨l.file, l.line, l.col, l.lineText⟩

/-- The report of a violation. -/
def Violation.report (v : Violation) : ViolationReport :=
  ⟨v.kind.name, v.message, v.locations.map Location.report, v.file?⟩

namespace PairReport

/-- The report of a pair that passed. -/
def passed (header source : String) : PairReport :=
  ⟨header, source, .ofNames header source, true, none, none⟩

/-- The report of a pair with a violation. -/
def violated (header source : String) (v : Violation) : PairReport :=
  ⟨header, source, .ofNames header source, false, some v.report, none⟩

/-- The report of a pair that could not be read. -/
def unreadable (header source reason : String) : PairReport :=
  ⟨header, source, .ofNames header source, false, none, some reason⟩

end PairReport

/-! ## As JSON -/

/-- A place as a JSON value. -/
def LocationReport.json (r : LocationReport) : JsonValue :=
  .object [("file", .text r.file), ("line", .int r.line), ("column", .int r.column),
    ("text", .text r.text)]

/-- A violation as a JSON value. -/
def ViolationReport.json (r : ViolationReport) : JsonValue :=
  .object [("kind", .text r.kind), ("message", .text r.message),
    ("locations", .list (r.locations.map LocationReport.json)), ("file", .ofText? r.file)]

/-- A verdict as a JSON value. -/
def PairReport.json (r : PairReport) : JsonValue :=
  .object [("header", .text r.header), ("source", .text r.source), ("mode", .text r.mode.name),
    ("ok", .bool r.ok), ("violation", (r.violation.map ViolationReport.json).getD .null),
    ("error", .ofText? r.error)]

end PrototypeOrder
