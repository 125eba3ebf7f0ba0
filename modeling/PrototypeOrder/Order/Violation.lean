/-
# Violations of the declaration order

A `Fault` is a way in which prototypes and bodies can disagree, or a file be
unreadable, that is shown at places of the files.  A `Violation` is such a fault with its
places, in the order they are shown, or a file checked on its own that has no body at
all, which has no place to point at.
-/
import PrototypeOrder.Source.Location

namespace PrototypeOrder

/-- What can be wrong at some place. -/
inductive Fault where
  | syntaxError
  | undeclaredDefinition
  | outOfOrder
  | unexpectedDeclaration
  | undefinedDeclaration
deriving DecidableEq, Repr

/-- The kinds of violation. -/
inductive Kind where
  | fault (f : Fault)
  | emptyHeaderOnly
deriving DecidableEq, Repr

namespace Kind

/-- All kinds, in the order in which they are listed to users. -/
def all : List Kind :=
  [fault .syntaxError, fault .undeclaredDefinition, fault .outOfOrder,
    fault .unexpectedDeclaration, fault .undefinedDeclaration, emptyHeaderOnly]

/-- The name of a kind in reports. -/
def name : Kind → String
  | fault .syntaxError => "syntax-error"
  | fault .undeclaredDefinition => "definition-without-declaration"
  | fault .outOfOrder => "out-of-order"
  | fault .unexpectedDeclaration => "unexpected-declaration"
  | fault .undefinedDeclaration => "declaration-without-definition"
  | emptyHeaderOnly => "empty-header-only-file"

/-- The message that goes with a kind. -/
def message : Kind → String
  | fault .syntaxError => "syntax error"
  | fault .undeclaredDefinition => "definition without matching declaration"
  | fault .outOfOrder => "declaration and definition not in order"
  | fault .unexpectedDeclaration => "found declaration but expected definition"
  | fault .undefinedDeclaration => "declaration without matching definition"
  | emptyHeaderOnly => "header-only file doesn't contain any definition"

/-- The kind with a given name. -/
def ofName? (s : String) : Option Kind := all.find? fun k => k.name = s

theorem mem_all (k : Kind) : k ∈ all := by
  cases k with
  | fault f => cases f <;> simp [all]
  | emptyHeaderOnly => simp [all]

end Kind

/-- A breach of the declaration order. -/
inductive Violation where
  /-- a fault and the places it is shown at -/
  | located (fault : Fault) (locations : List Location)
  /-- a file checked on its own without any body -/
  | emptyFile (file : String)
deriving DecidableEq, Repr

namespace Violation

/-- The kind of a violation. -/
def kind : Violation → Kind
  | located f _ => .fault f
  | emptyFile _ => .emptyHeaderOnly

/-- The places a violation is shown at. -/
def locations : Violation → List Location
  | located _ ls => ls
  | emptyFile _ => []

/-- The file of a violation that has no place. -/
def file? : Violation → Option String
  | located _ _ => none
  | emptyFile f => some f

/-- What is wrong, in words. -/
def message (v : Violation) : String := v.kind.message

/-- A violation in one line: the message and, in brackets, where. -/
def summary (v : Violation) : String :=
  match v with
  | located _ ls =>
    let places := ", ".intercalate (ls.map Location.label)
    if places = "" then v.message else s!"{v.message} ({places})"
  | emptyFile f => s!"{v.message} ({f})"

end Violation

end PrototypeOrder
