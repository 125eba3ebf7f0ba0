/-
# Checking files

The check of files that are read first.  All files are read before any of them is parsed.
-/
import PrototypeOrder.Order.Verdict
import PrototypeOrder.FileSystem.ReadError

namespace PrototypeOrder

/-- Why a check of files does not succeed. -/
inductive FileFailure where
  | check (f : Failure)
  | read (e : ReadError)
deriving DecidableEq, Repr

/-- What is wrong, in words. -/
def FileFailure.message : FileFailure → String
  | check f => f.message
  | read e => e.message

/-- A verdict on contents, as a verdict on files. -/
def Verdict.ofFiles (v : Verdict) : Logged (Except FileFailure Unit) :=
  ⟨v.log, v.value.mapError .check⟩

/-- Reads a header and a source and checks them.  The header is checked on its own when no
source is named or the source has its name; it is then read once. -/
def validateFiles (parse : Bytes → Node) (read : Reader) (header : String)
    (source? : Option String) : Logged (Except FileFailure Unit) :=
  match read header with
  | .error e => .pure (.error (.read e))
  | .ok headerBytes =>
    if source? = none ∨ source? = some header then
      (validate parse header (.bytes headerBytes) none none).ofFiles
    else
      let source := source?.getD header
      match read source with
      | .error e => .pure (.error (.read e))
      | .ok sourceBytes =>
        (validate parse header (.bytes headerBytes) (some source)
          (some (.bytes sourceBytes))).ofFiles

end PrototypeOrder
