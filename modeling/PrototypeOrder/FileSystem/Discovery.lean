/-
# Finding headers and their sources

A header `x.h` and a source `x.c` in one directory are a pair.  `FileSystem.discover` finds
all pairs below a directory, and the headers without a source.  Some directories, such as
those of build products, are not entered.

* `FileSystem.walk` : the directories that a search comes to, each told by its path;
* `FileSystem.reportedPath` : the path under which a file is reported;
* `FileSystem.discover` : what a search finds.
-/
import PrototypeOrder.Order.Event
import PrototypeOrder.FileSystem.Entry

namespace PrototypeOrder

/-- The extension of headers. -/
def headerExtension : String := ".h"

/-- The extension of sources. -/
def sourceExtension : String := ".c"

/-- The names of directories that are not entered. -/
def skippedDirectories : List String :=
  [".git", "build", "cmake-build-debug", "cmake-build-release", "__pycache__", "node_modules",
    ".vscode", ".idea", "venv"]

/-- A header and its source, as paths below the searched directory. -/
structure FilePair where
  header : String
  source : String
deriving DecidableEq, Repr

/-- The mode in which a pair is checked. -/
def FilePair.mode (p : FilePair) : Mode := Mode.ofNames p.header p.source

/-- A header that has been found, and its source if there is one. -/
structure Sighting where
  header : String
  source? : Option String
deriving DecidableEq, Repr

/-- The pair of a header with a source. -/
def Sighting.pair? (s : Sighting) : Option FilePair := s.source?.map fun src => ⟨s.header, src⟩

/-- A header without a source. -/
def Sighting.unpaired? (s : Sighting) : Option String :=
  if s.source?.isNone then some s.header else none

/-! ## The walk -/

/-- A directory that a walk has come to: its path, and the names in it that are not those of
directories. -/
structure Visit where
  path : String
  fileNames : List String
deriving DecidableEq, Repr

/-- The names of the directories in a directory that are entered.  A link is not followed. -/
def Directory.entered (d : Directory) : List String :=
  d.filterMap fun e =>
    match e with
    | .directory name _ => if name ∈ skippedDirectories then none else some name
    | _ => none

namespace FileSystem

/-- Whether an entry of the directory at a path is a directory, or a link that leads to one. -/
def leadsToDirectory (fs : FileSystem) (path : String) : Entry → Bool
  | .file _ _ => false
  | .directory _ _ => true
  | .link name _ => fs.isDirectory (Path.join path name)

/-- What is seen of a directory at a path. -/
def visit (fs : FileSystem) (path : String) (d : Directory) : Visit where
  path := path
  fileNames := (d.filter fun e => !fs.leadsToDirectory path e).map Entry.name

/-- The directory at a path and those below it, down to so many levels.  A directory that cannot
be listed at its path is passed over. -/
def walk (fs : FileSystem) : Nat → String → List Visit
  | 0, _ => []
  | levels + 1, path =>
    match fs.target path with
    | .ok (.directory d _) =>
      fs.visit path d :: d.entered.flatMap fun name => walk fs levels (Path.join path name)
    | _ => []

/-! ## Headers and sources -/

/-- The path under which a file is reported: as it is seen from the searched directory, in normal
form and with slashes for backslashes. -/
def reportedPath (fs : FileSystem) (root directory name : String) : String :=
  Path.forwardSlashes
    (Path.normalise (Path.join (Path.relative fs.currentPath directory root) name))

/-- What a name in a directory is: a header with or without a source, or nothing. -/
def sighting? (fs : FileSystem) (root : String) (v : Visit) (name : String) : Option Sighting :=
  let (stem, extension) := Path.splitExtension name
  if extension = headerExtension then
    let source := stem ++ sourceExtension
    some ⟨fs.reportedPath root v.path name,
      if source ∈ v.fileNames then some (fs.reportedPath root v.path source) else none⟩
  else none

/-- The headers of one directory. -/
def sightings (fs : FileSystem) (root : String) (v : Visit) : List Sighting :=
  v.fileNames.filterMap (fs.sighting? root v)

/-- The headers in the directory at a path and below it.  A path gets longer from level to level,
so at the limit of paths there is nothing more to list. -/
def survey (fs : FileSystem) (root : String) : List Sighting :=
  (fs.walk pathLimit root).flatMap (fs.sightings root)

end FileSystem

/-! ## What is found -/

/-- The pairs and the headers without a source, each in the order of the headers' paths. -/
structure Discovery where
  pairs : List FilePair
  unpaired : List String
deriving DecidableEq, Repr

/-- Sorts what has been found. -/
def Discovery.ofSightings (ss : List Sighting) : Discovery where
  pairs := (ss.filterMap Sighting.pair?).mergeSort fun p q => !decide (q.header < p.header)
  unpaired := (ss.filterMap Sighting.unpaired?).mergeSort fun p q => !decide (q < p)

namespace FileSystem

/-- Finds all pairs below a path. -/
def discover (fs : FileSystem) (root : String) : Logged (Except ReadError Discovery) :=
  if Path.hasNul root then .pure (.error .nulInPath)
  else
    let d := Discovery.ofSightings (fs.survey root)
    Logged.after (.found d.pairs.length d.unpaired.length root) (.pure (.ok d))

end FileSystem

end PrototypeOrder
