/-
# Prototypes and bodies

The two things that are compared: a `Declaration` is a function prototype, a
`Definition` is a function with a body.  The reading of a file comes across such items, and
across bodies without a name.
-/
import PrototypeOrder.Source.Location

namespace PrototypeOrder

/-- The function a program starts with; it needs no prototype. -/
def entryPoint : String := "main"

/-- A function prototype.  `location` is the place of the name, `start?` the place where
the whole declaration begins, when that is known. -/
structure Declaration where
  name : String
  location : Location
  start? : Option Location
deriving DecidableEq, Repr

/-- A function with a body.  `location` is the place of the name. -/
structure Definition where
  name : String
  location : Location
  isStatic : Bool
deriving DecidableEq, Repr

/-- The place to blame for a declaration: where it begins, or else its name. -/
def Declaration.blame (d : Declaration) : Location := d.start?.getD d.location

/-- Static functions and the entry point are never compared with a prototype. -/
def Definition.isExempt (d : Definition) : Bool := d.isStatic || d.name == entryPoint

/-- A prototype or a body. -/
inductive Item where
  | declaration (d : Declaration)
  | definition (d : Definition)
deriving DecidableEq, Repr

namespace Item

/-- The function's name. -/
def name : Item → String
  | declaration d => d.name
  | definition d => d.name

/-- The place of the function's name. -/
def location : Item → Location
  | declaration d => d.location
  | definition d => d.location

end Item

/-- What the reading of a file comes across. -/
inductive Find where
  /-- a prototype or a body -/
  | item (i : Item)
  /-- a body without a function name, which is passed over -/
  | nameless (file : String) (row : Int)
deriving DecidableEq, Repr

/-- The item that was come across, if it was one. -/
def Find.item? : Find → Option Item
  | item i => some i
  | nameless _ _ => none

end PrototypeOrder
