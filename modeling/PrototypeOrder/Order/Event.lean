/-
# The record of a check

While files are checked, noteworthy steps are recorded.  An `Event` is one such step;
`Logged` is a value together with the events on the way to it, in order.
-/
import PrototypeOrder.Source.Item
import PrototypeOrder.Order.Mode

namespace PrototypeOrder

/-- How much attention a record asks for. -/
inductive Level where
  | debug
  | info
  | warning
  | error
deriving DecidableEq, Repr

/-- The name of a level in records. -/
def Level.name : Level → String
  | debug => "DEBUG"
  | info => "INFO"
  | warning => "WARNING"
  | error => "ERROR"

/-- The number of a level; a threshold lets through the levels with a number at least its
own. -/
def Level.number : Level → Nat
  | debug => 10
  | info => 20
  | warning => 30
  | error => 40

/-- A recorded step. -/
inductive Event where
  /-- a check begins -/
  | checking (header : String) (mode : Mode)
  /-- a file has been parsed -/
  | parsed (file : String) (bytes : Nat)
  /-- a file has text that could not be read -/
  | syntaxError (file : String) (location : Location)
  /-- a body without a function name has been passed over -/
  | skipped (file : String) (row : Int)
  /-- the first body has been met, after so many prototypes -/
  | firstDefinition (definition : Definition) (pending : Nat)
  /-- a header has bodies of its own, so the source is left out -/
  | sourceIgnored (header source : String)
  /-- all prototypes and bodies have been matched -/
  | matched (functions : Nat)
  /-- a directory has been searched -/
  | found (pairs unpaired : Nat) (root : String)
  /-- a pair of files could not be read -/
  | unreadable (header source : String) (reason : String)
  /-- the command line could not read a file -/
  | ioFailure
deriving DecidableEq, Repr

namespace Event

/-- The level of a record. -/
def level : Event → Level
  | checking .. => .info
  | parsed .. => .debug
  | syntaxError .. => .info
  | skipped .. => .debug
  | firstDefinition .. => .debug
  | sourceIgnored .. => .warning
  | matched .. => .debug
  | found .. => .info
  | unreadable .. => .error
  | ioFailure => .debug

/-- The part of the program that a record is from. -/
def origin : Event → String
  | checking .. | sourceIgnored .. => "validator"
  | parsed .. | syntaxError .. => "c_parser"
  | skipped .. => "extractor"
  | firstDefinition .. | matched .. => "matcher"
  | found .. | unreadable .. => "workspace"
  | ioFailure => "cli"

/-- The text of a record. -/
def message : Event → String
  | checking header mode => s!"Checking {header} ({mode.name} mode)"
  | parsed file bytes => s!"Parsed {file} ({bytes} bytes)"
  | syntaxError file location => s!"Syntax error in {file} at {location.label}"
  | skipped file row => s!"Skipping definition without identifier in {file} at row {row}"
  | firstDefinition d pending =>
    s!"First definition '{d.name}' at {d.location.label}; {pending} declaration(s) pending"
  | sourceIgnored header source =>
    s!"{header} contains function definitions; reconciling the header on its own, " ++
      s!"{source} is not examined and its bodies are not matched against the remaining prototypes"
  | matched functions => s!"Matched {functions} function(s)"
  | found pairs unpaired root =>
    s!"Found {pairs} header/source pair(s), {unpaired} unpaired header(s) in {root}"
  | unreadable header source reason => s!"Cannot read {header} / {source}: {reason}"
  | ioFailure => "I/O failure"

end Event

/-- The record of what the reading of a file comes across: only what it passes over leaves
one. -/
def Find.event? : Find → Option Event
  | item _ => none
  | nameless file row => some (.skipped file row)

/-- A value and the events on the way to it. -/
structure Logged (α : Type) where
  log : List Event
  value : α
deriving Repr

namespace Logged

/-- Records an event before a computation. -/
def after {α : Type} (e : Event) (x : Logged α) : Logged α := ⟨e :: x.log, x.value⟩

/-- Records nothing. -/
protected def pure {α : Type} (a : α) : Logged α := ⟨[], a⟩

@[simp]
theorem log_after {α : Type} (e : Event) (x : Logged α) : (x.after e).log = e :: x.log := rfl

@[simp]
theorem value_after {α : Type} (e : Event) (x : Logged α) : (x.after e).value = x.value := rfl

end Logged

end PrototypeOrder
