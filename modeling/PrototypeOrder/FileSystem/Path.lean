/-
# Paths

A path is names with slashes between them.  Here are the pieces of a path, a path below
another one, the extension of a file name, and what a path looks like from a directory.

The same path may be spelled with names that stand for the directory itself, with `..`, and with
more slashes than it needs.  `normalise` takes these out; it goes by the names alone, and a
name before `..` may well be a link to somewhere else.
-/
import PrototypeOrder.Text.Lines

namespace PrototypeOrder.Path

/-- The names of a path; a slash at either end or a double slash gives an empty name. -/
def names (path : String) : List String := (split '/' path.toList).map String.ofList

/-- The path made of some names. -/
def ofNames (names : List String) : String := "/".intercalate names

/-- Whether a path starts at the top of the file system. -/
def isAbsolute (path : String) : Bool := path.toList.head? = some '/'

/-- A path below a directory.  An absolute path stays as it is, and an empty directory or
one that ends in a slash takes no further slash. -/
def join (directory path : String) : String :=
  if isAbsolute path then path
  else if directory = "" ∨ directory.toList.getLast? = some '/' then directory ++ path
  else directory ++ "/" ++ path

/-- Whether a path has the character NUL, which no file name has. -/
def hasNul (path : String) : Bool := path.toList.any fun c => c.toNat = 0

/-- A path with every backslash turned into a slash. -/
def forwardSlashes (path : String) : String :=
  String.ofList (path.toList.map fun c => if c = '\\' then '/' else c)

/-- A file name cut before its extension, which starts at the last dot.  Dots at the start
of a name belong to the name. -/
def splitExtension (name : String) : String × String :=
  let reversed := name.toList.reverse
  let extension := reversed.takeWhile (· ≠ '.')
  match reversed.drop extension.length with
  | '.' :: stem =>
    if stem.all (· = '.') then (name, "")
    else (String.ofList stem.reverse, String.ofList ('.' :: extension.reverse))
  | _ => (name, "")

/-! ## Normal forms -/

/-- The slashes that the normal form of a path begins with.  Two stay two, and more are one. -/
def leadingSlashes (path : String) : String :=
  match (path.toList.takeWhile (· = '/')).length with
  | 0 => ""
  | 2 => "//"
  | _ => "/"

/-- Goes on from names in normal form by one more name.  The name `..` takes back the one before
it; at the start of a relative path, and behind another `..`, there is none to take back. -/
def tidyName (absolute : Bool) (done : List String) (name : String) : List String :=
  if name = "" ∨ name = "." then done
  else if name ≠ ".." ∨ (absolute = false ∧ done = []) ∨ done.getLast? = some ".." then
    done ++ [name]
  else done.dropLast

/-- The names of a path in normal form. -/
def tidyNames (path : String) : List String :=
  (names path).foldl (tidyName (isAbsolute path)) []

/-- The normal form of a path. -/
def normalise (path : String) : String :=
  let normal := leadingSlashes path ++ ofNames (tidyNames path)
  if normal = "" then "." else normal

/-- The absolute form of a path; `current` is the path of the current directory. -/
def absolute (current path : String) : String := normalise (join current path)

/-! ## Relative paths -/

/-- The names of a path without the empty ones. -/
def steps (path : String) : List String := (names path).filter fun n => n ≠ ""

/-- How many names two lists begin with in common. -/
def shared : List String → List String → Nat
  | x :: xs, y :: ys => if x = y then shared xs ys + 1 else 0
  | _, _ => 0

/-- The path of a way, from where it begins. -/
def ofWay : List String → String
  | [] => "."
  | first :: rest => rest.foldl join first

/-- A path as it is seen from `start`: up from there to the last directory in common, and down
again.  Paths that are not absolute are taken from the directory `current`. -/
def relative (current path start : String) : String :=
  let goal := steps (absolute current path)
  let origin := steps (absolute current start)
  let common := shared origin goal
  ofWay (List.replicate (origin.length - common) ".." ++ goal.drop common)

end PrototypeOrder.Path
