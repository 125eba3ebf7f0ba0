/-
# Reading can fail

The errors with which the operating system refuses to open or read a file, and their texts.
-/
import PrototypeOrder.Text.Quoted
import PrototypeOrder.Text.Utf8

namespace PrototypeOrder

/-- An error of the operating system: its number, the reason in words, and the path it is about.
An error of a file that is already open comes without a path. -/
structure IoError where
  number : Int
  reason : String
  path? : Option String
deriving DecidableEq, Repr

namespace IoError

/-- The full text of an error. -/
def message (e : IoError) : String :=
  match e.path? with
  | some path => s!"[Errno {e.number}] {e.reason}: {Text.quoted path}"
  | none => s!"[Errno {e.number}] {e.reason}"

/-- The text shown to users: the reason and the path, or the full text when there is no path or
an empty one. -/
def brief (e : IoError) : String :=
  match e.path? with
  | some path => if path = "" then e.message else s!"{e.reason}: {path}"
  | none => e.message

end IoError

/-- Why a path leads nowhere, or to nothing that can be read. -/
inductive Cause where
  | notFound
  | notDirectory
  | isDirectory
  | nameTooLong
  | tooManyLinks
deriving DecidableEq, Repr

namespace Cause

/-- The number of an error. -/
def number : Cause → Int
  | notFound => 2
  | notDirectory => 20
  | isDirectory => 21
  | nameTooLong => 36
  | tooManyLinks => 40

/-- All causes. -/
def all : List Cause := [notFound, notDirectory, isDirectory, nameTooLong, tooManyLinks]

/-- The cause with a given number. -/
def ofNumber? (n : Int) : Option Cause := all.find? fun c => c.number = n

/-- The text of an error. -/
def reason : Cause → String
  | notFound => "No such file or directory"
  | notDirectory => "Not a directory"
  | isDirectory => "Is a directory"
  | nameTooLong => "File name too long"
  | tooManyLinks => "Too many levels of symbolic links"

/-- The error for a path that cannot be opened. -/
def error (c : Cause) (path : String) : IoError := ⟨c.number, c.reason, some path⟩

end Cause

/-- Why a file cannot be read. -/
inductive ReadError where
  | io (e : IoError)
  /-- a path with a NUL is not even passed to the operating system -/
  | nulInPath
deriving DecidableEq, Repr

/-- What is wrong, in words. -/
def ReadError.message : ReadError → String
  | io e => e.message
  | nulInPath => "embedded null byte"

/-- Reading files: the contents of a path, or why there are none. -/
abbrev Reader := String → Except ReadError Bytes

end PrototypeOrder
