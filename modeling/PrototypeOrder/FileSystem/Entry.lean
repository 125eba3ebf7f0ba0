/-
# File systems

A file system is a tree of directories, with one of them as the current one.  A directory is the
list of its entries, in the order in which they are listed; an entry is a file, a directory or a
symbolic link.

* `resolve` : where names lead, through directories and links;
* `FileSystem.target` : where a path leads, from the top or from the current directory;
* `FileSystem.read` : the contents of a file;
* `FileSystem.write`, `FileSystem.remove` : a file system with an entry more or less.
-/
import PrototypeOrder.FileSystem.Path
import PrototypeOrder.FileSystem.ReadError

namespace PrototypeOrder

/-- An entry of a directory. -/
inductive Entry where
  | file (name : String) (contents : Bytes)
  | directory (name : String) (entries : List Entry)
  | link (name : String) (target : String)
deriving Repr

/-- The name of an entry. -/
def Entry.name : Entry → String
  | file n _ => n
  | directory n _ => n
  | link n _ => n

/-- The entries of a directory, in the order in which they are listed. -/
abbrev Directory := List Entry

/-- The entry with a given name. -/
def Directory.find? (d : Directory) (name : String) : Option Entry :=
  List.find? (fun e => e.name = name) d

/-! ## Where a path leads -/

/-- Where a path leads: to a file, or to a directory, given with those above it. -/
inductive Target where
  | file (contents : Bytes)
  | directory (d : Directory) (above : List Directory)
deriving Repr

/-- The longest name of an entry, in bytes. -/
def maxNameBytes : Nat := 255

/-- The length from which on a path is too long, in bytes. -/
def pathLimit : Nat := 4096

/-- How many links are followed on the way along one path. -/
def maxLinks : Nat := 40

/-- The topmost directory, from a directory with those above it. -/
def topmost (d : Directory) (above : List Directory) : Directory := above.getLast?.getD d

/-- Goes along names from a directory.  A link is left to `follow`, with the names still to
come; one to an absolute path goes on from the topmost directory.  Above that one there is only
itself. -/
def descend (follow : Directory → List Directory → List String → Except Cause Target)
    (d : Directory) (above : List Directory) : List String → Except Cause Target
  | [] => .ok (.directory d above)
  | name :: rest =>
    if name = "" ∨ name = "." then descend follow d above rest
    else if name = ".." then
      match above with
      | [] => descend follow d [] rest
      | parent :: above => descend follow parent above rest
    else if maxNameBytes < name.utf8ByteSize then .error .nameTooLong
    else
      match d.find? name with
      | none => .error .notFound
      | some (.directory _ inner) => descend follow inner (d :: above) rest
      | some (.file _ contents) =>
        if rest = [] then .ok (.file contents) else .error .notDirectory
      | some (.link _ target) =>
        if target = "" then .error .notFound
        else if Path.isAbsolute target then
          follow (topmost d above) [] (Path.names target ++ rest)
        else follow d above (Path.names target ++ rest)

/-- Goes along names from a directory, following at most `links` links. -/
def resolve : Nat → Directory → List Directory → List String → Except Cause Target
  | 0 => descend fun _ _ _ => .error .tooManyLinks
  | links + 1 => descend (resolve links)

/-! ## Reading and writing -/

/-- The topmost directory, and the names of the directories on the way from there to the current
one. -/
structure FileSystem where
  top : Directory
  here : List String
deriving Repr

namespace FileSystem

/-- A file system with an empty current directory. -/
def empty : FileSystem := ⟨[.directory "work" []], ["work"]⟩

/-- The path of the current directory. -/
def currentPath (fs : FileSystem) : String := "/" ++ Path.ofNames fs.here

/-- The names along a path from the topmost directory. -/
def fromTop (fs : FileSystem) (path : String) : List String :=
  if Path.isAbsolute path then Path.names path else fs.here ++ Path.names path

/-- Where a path leads. -/
def target (fs : FileSystem) (path : String) : Except Cause Target :=
  if pathLimit ≤ path.utf8ByteSize then .error .nameTooLong
  else if path = "" then .error .notFound
  else resolve maxLinks fs.top [] (fs.fromTop path)

/-- The contents of a file. -/
def read (fs : FileSystem) : Reader := fun path =>
  if Path.hasNul path then .error .nulInPath
  else
    match fs.target path with
    | .ok (.file contents) => .ok contents
    | .ok (.directory _ _) => .error (.io (Cause.isDirectory.error path))
    | .error cause => .error (.io (cause.error path))

/-- Whether a path leads to a directory. -/
def isDirectory (fs : FileSystem) (path : String) : Bool :=
  if Path.hasNul path then false
  else
    match fs.target path with
    | .ok (.directory _ _) => true
    | _ => false

end FileSystem

namespace Directory

/-- Puts an entry in the place of the one with its name, or at the end. -/
def put (d : Directory) (e : Entry) : Directory :=
  if d.any fun x => x.name = e.name then d.map fun x => if x.name = e.name then e else x
  else d ++ [e]

/-- The entries of the directory with a given name; there are none if there is no such
directory. -/
def inside (d : Directory) (name : String) : Directory :=
  match d.find? name with
  | some (.directory _ entries) => entries
  | _ => []

/-- Puts an entry at the end of a way through directories, which are made where they are
missing.  The entry is given from what is in the directory so far. -/
def putAt (d : Directory) (way : List String) (entry : Directory → Entry) : Directory :=
  match way with
  | [] => d.put (entry d)
  | name :: rest => d.put (.directory name (putAt (d.inside name) rest entry))

/-- A directory without the entry at the end of a way. -/
def removeAt (d : Directory) (way : List String) (name : String) : Directory :=
  match way with
  | [] => d.filter fun e => e.name ≠ name
  | outer :: rest =>
    if d.any fun e => e.name = outer then
      d.put (.directory outer (removeAt (d.inside outer) rest name))
    else d

end Directory

namespace FileSystem

/-- The names of the entries on the way along a path, from the topmost directory. -/
def way (fs : FileSystem) (path : String) : List String :=
  (fs.fromTop path).filter fun n => n ≠ "" ∧ n ≠ "."

/-- The file system with an entry at a path.  The entry is made from its name and from what is in
its directory so far. -/
def put (fs : FileSystem) (path : String) (entry : String → Directory → Entry) : FileSystem :=
  let name := (fs.way path).getLast?.getD ""
  { fs with top := fs.top.putAt (fs.way path).dropLast (entry name) }

/-- The file system with a file at a path. -/
def write (fs : FileSystem) (path : String) (contents : Bytes) : FileSystem :=
  fs.put path fun name _ => .file name contents

/-- The file system with a directory at a path. -/
def makeDirectory (fs : FileSystem) (path : String) : FileSystem :=
  fs.put path fun name d => .directory name (d.inside name)

/-- The file system with a symbolic link at a path. -/
def link (fs : FileSystem) (path target : String) : FileSystem :=
  fs.put path fun name _ => .link name target

/-- The file system without the entry at a path. -/
def remove (fs : FileSystem) (path : String) : FileSystem :=
  let name := (fs.way path).getLast?.getD ""
  { fs with top := fs.top.removeAt (fs.way path).dropLast name }

end FileSystem

end PrototypeOrder
