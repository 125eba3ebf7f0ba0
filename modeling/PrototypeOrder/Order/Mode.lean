/-
# One file or two

Prototypes and bodies are checked in one file, or in a header and a source.
-/

namespace PrototypeOrder

/-- How many files take part in a check: the prototypes and the bodies are in one file, or
in two. -/
inductive Mode where
  | headerOnly
  | split
deriving DecidableEq, Repr

namespace Mode

/-- A file checked against itself is checked on its own. -/
def ofNames (header source : String) : Mode :=
  if header = source then headerOnly else split

/-- The name of a mode. -/
def name : Mode → String
  | headerOnly => "header-only"
  | split => "split"

end Mode

end PrototypeOrder
