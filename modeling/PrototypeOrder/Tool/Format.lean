/-
# Output formats

The tools answer in text or in JSON, as asked for.
-/

namespace PrototypeOrder.Tool

/-- How a tool answers. -/
inductive Format where
  | text
  | json
deriving DecidableEq, Repr

/-- The name of a format. -/
def Format.name : Format → String
  | text => "text"
  | json => "json"

/-- All formats. -/
def Format.all : List Format := [.text, .json]

/-- The format with a given name. -/
def Format.ofName? (s : String) : Option Format := all.find? fun f => f.name = s

/-- The answer to an unknown format. -/
def unknownFormat : String :=
  "Error: output_format must be one of " ++ ", ".intercalate (Format.all.map Format.name)

end PrototypeOrder.Tool
