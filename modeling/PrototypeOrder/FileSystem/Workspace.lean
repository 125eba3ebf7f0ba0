/-
# Checking a directory

Every pair of header and source below a directory is checked, and reported on.  A pair that
fails, or cannot be read, does not keep the others from being checked.
-/
import PrototypeOrder.FileSystem.Check
import PrototypeOrder.FileSystem.Discovery
import PrototypeOrder.Report

namespace PrototypeOrder

/-- The report of a pair that has been checked; only a violation is reported, any other
failure is passed on. -/
def PairReport.ofVerdict (p : FilePair) (v : Verdict) : Logged (Except FileFailure PairReport) :=
  ⟨v.log,
    match v.value with
    | .ok () => .ok (.passed p.header p.source)
    | .error (.violation x) => .ok (.violated p.header p.source x)
    | .error f => .error (.check f)⟩

/-- Reads the files of a pair below a directory, the header first. -/
def FilePair.read (p : FilePair) (read : Reader) (root : String) :
    Except ReadError (Bytes × Bytes) :=
  match read (Path.join root p.header) with
  | .error e => .error e
  | .ok header =>
    match read (Path.join root p.source) with
    | .error e => .error e
    | .ok source => .ok (header, source)

/-- Checks one pair below a directory.  The diagnostics name the files by their paths below
the directory.  Files that cannot be read are reported. -/
def FilePair.check (p : FilePair) (parse : Bytes → Node) (read : Reader) (root : String) :
    Logged (Except FileFailure PairReport) :=
  match p.read read root with
  | .ok (header, source) =>
    PairReport.ofVerdict p
      (validate parse p.header (.bytes header) (some p.source) (some (.bytes source)))
  | .error (.io e) =>
    Logged.after (.unreadable p.header p.source e.message)
      (.pure (.ok (.unreadable p.header p.source e.message)))
  | .error .nulInPath => .pure (.error (.read .nulInPath))

/-- Checks pairs one after the other. -/
def FilePair.checkAll (parse : Bytes → Node) (read : Reader) (root : String) :
    List FilePair → Logged (Except FileFailure (List PairReport))
  | [] => .pure (.ok [])
  | p :: rest =>
    (p.check parse read root).andThen fun report =>
      (checkAll parse read root rest).andThen fun reports => .pure (.ok (report :: reports))

/-- What has been found below a directory and the report of every pair. -/
structure WorkspaceCheck where
  discovery : Discovery
  reports : List PairReport
deriving DecidableEq, Repr

namespace FileSystem

/-- Finds all pairs below a directory and checks them; their files are read by `read`. -/
def checkPairs (fs : FileSystem) (parse : Bytes → Node) (read : Reader) (root : String) :
    Logged (Except FileFailure WorkspaceCheck) :=
  let found := fs.discover root
  match found.value with
  | .error e => ⟨found.log, .error (.read e)⟩
  | .ok d =>
    let checked := FilePair.checkAll parse read root d.pairs
    ⟨found.log ++ checked.log, checked.value.map fun reports => ⟨d, reports⟩⟩

/-- Finds all pairs below a directory and checks them. -/
def checkWorkspace (fs : FileSystem) (parse : Bytes → Node) (root : String) :
    Logged (Except FileFailure WorkspaceCheck) :=
  fs.checkPairs parse fs.read root

end FileSystem

end PrototypeOrder
