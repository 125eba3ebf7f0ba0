/-
# Places in a file

A `Point` is a row and a column, both counted from zero; columns count bytes.  A
`Location` names the file as well and carries the text of the line, so that a
diagnostic can be shown without the file at hand.
-/
import PrototypeOrder.Text.Lines

namespace PrototypeOrder

/-- The byte that ends a row. -/
def newlineByte : UInt8 := 10

/-- A row and a column, both counted from zero. -/
structure Point where
  row : Int
  column : Int
deriving DecidableEq, Repr

/-- The point that a byte offset stands for: the row is the number of newlines before
it, the column the number of bytes since the last of them.  An offset beyond the end
stands for the end. -/
def Point.ofOffset (bytes : Bytes) (offset : Nat) : Point :=
  let before := bytes.take offset
  { row := before.count newlineByte
    column := (before.reverse.takeWhile (· ≠ newlineByte)).length }

/-- A place in a named file, with the text of its line. -/
structure Location where
  row : Int
  column : Int
  file : String
  lineText : String
deriving DecidableEq, Repr

namespace Location

/-- The line number shown to users, counted from one. -/
def line (l : Location) : Int := l.row + 1

/-- The column number shown to users, counted from one. -/
def col (l : Location) : Int := l.column + 1

/-- A location as `file:line:column`. -/
def label (l : Location) : String := s!"{l.file}:{l.line}:{l.col}"

end Location

end PrototypeOrder
