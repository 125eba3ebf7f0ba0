/-
# Checking a header and a source

`validate` checks one file on its own, or a header against a source.  A file on its own
has its prototypes first and then its bodies.  Of a pair, the header has the prototypes
and the source the bodies; a header with a body in it is checked on its own from there on
and the source is not looked at.

How bytes are parsed is left open: `parse` may be any function.
-/
import PrototypeOrder.Source.File
import PrototypeOrder.Order.Matcher

namespace PrototypeOrder

/-- What is given as the contents of a file. -/
inductive Contents where
  | bytes (b : Bytes)
  /-- something that is no byte string; its type is named -/
  | other (typeName : String)
deriving DecidableEq, Repr

/-- Why a check does not succeed. -/
inductive Failure where
  | violation (v : Violation)
  | misuse (m : Misuse)
  /-- the contents of a file are no byte string -/
  | notBytes (typeName : String)
  /-- a source is named and its contents are not given -/
  | missingSource
deriving DecidableEq, Repr

namespace Failure

/-- A matcher's reason to stop, as the failure of a check. -/
def ofStop : Stop → Failure
  | .violation v => violation v
  | .misuse m => misuse m

/-- What is wrong, in words. -/
def message : Failure → String
  | violation v => v.summary
  | misuse m => m.message
  | notBytes typeName => s!"Source must be bytes, got {typeName}"
  | missingSource => "source_source is required when source_name is given"

end Failure

/-- The outcome of a check, with its record. -/
abbrev Verdict := Logged (Except Failure Unit)

namespace Logged

/-- Goes on with the result, unless there is none. -/
def andThen {ε α β : Type} (x : Logged (Except ε α)) (f : α → Logged (Except ε β)) :
    Logged (Except ε β) :=
  match x.value with
  | .ok a => ⟨x.log ++ (f a).log, (f a).value⟩
  | .error e => ⟨x.log, .error e⟩

end Logged

namespace SourceFile

/-- Parses a file. -/
def parse (parse : Bytes → Node) (name : String) (contents : Contents) :
    Logged (Except Failure SourceFile) :=
  match contents with
  | .other typeName => .pure (.error (.notBytes typeName))
  | .bytes b => Logged.after (.parsed name b.length) (.pure (.ok ⟨name, b, parse b⟩))

/-- Refuses a file with a part that could not be read. -/
def checked (f : SourceFile) : Logged (Except Failure SourceFile) :=
  match f.tree.errorNode? with
  | some n =>
    let location := f.location n
    Logged.after (.syntaxError f.name location)
      (.pure (.error (.violation (.located .syntaxError [location]))))
  | none => .pure (.ok f)

/-- Parses a file and refuses one with a part that could not be read. -/
def parseChecked (parse : Bytes → Node) (name : String) (contents : Contents) :
    Logged (Except Failure SourceFile) :=
  (SourceFile.parse parse name contents).andThen checked

end SourceFile

/-- Reconciles all that is come across, then finishes. -/
def Matcher.settle (m : Matcher) (finds : List Find) : Verdict :=
  let r := m.reconcile finds
  match r.value.stop with
  | some stop => ⟨r.log, .error (.ofStop stop)⟩
  | none =>
    let f := r.value.matcher.finish
    match f.value.stop with
    | some stop => ⟨r.log ++ f.log, .error (.ofStop stop)⟩
    | none => ⟨r.log ++ f.log, .ok ()⟩

/-- A file on its own that has no body: its first prototype is to blame, if it has one. -/
def Matcher.withoutBodies (m : Matcher) (file : String) : Failure :=
  match m.pending with
  | front :: _ => .violation (.located .undefinedDeclaration [front.location])
  | [] => .violation (.emptyFile file)

/-- The source of a pair, which has to be given. -/
def SourceFile.parseSource (parse : Bytes → Node) (name : String) (source? : Option Contents) :
    Logged (Except Failure SourceFile) :=
  match source? with
  | some contents => parseChecked parse name contents
  | none => .pure (.error .missingSource)

/-- The check of a header that has been parsed.  The source is parsed only when the header
has no body. -/
def SourceFile.check (header : SourceFile) (parse : Bytes → Node) (sourceName : String)
    (source? : Option Contents) : Verdict :=
  let scanned := Matcher.fresh.scan header.finds
  match scanned.value.first, Mode.ofNames header.name sourceName with
  | some first, mode =>
    let settled := scanned.value.matcher.settle (.item (.definition first) :: scanned.value.rest)
    let warning : List Event :=
      match mode with
      | .headerOnly => []
      | .split => [.sourceIgnored header.name sourceName]
    ⟨scanned.log ++ warning ++ settled.log, settled.value⟩
  | none, .headerOnly =>
    ⟨scanned.log, .error (scanned.value.matcher.withoutBodies header.name)⟩
  | none, .split =>
    let settled := (parseSource parse sourceName source?).andThen fun source =>
      scanned.value.matcher.settle source.finds
    ⟨scanned.log ++ settled.log, settled.value⟩

/-- Checks a header against a source, or on its own when no source is named or the source
has its name. -/
def validate (parse : Bytes → Node) (headerName : String) (header : Contents)
    (sourceName? : Option String) (source? : Option Contents) : Verdict :=
  let sourceName := sourceName?.getD headerName
  Logged.after (.checking headerName (Mode.ofNames headerName sourceName))
    ((SourceFile.parseChecked parse headerName header).andThen fun file =>
      file.check parse sourceName source?)

end PrototypeOrder
