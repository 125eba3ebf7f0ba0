/-
# What files contain does not matter to a search

The layout of a file system is what is left of it when all files are emptied.  Where paths lead
depends on the layout alone, up to the contents of files, and so does what a search finds.

* `resolve_layout` : names lead to the layout of what they lead to;
* `FileSystem.walk_layout` : a walk comes to the same directories in the layout;
* `FileSystem.discover_of_layout` : file systems with one layout give one result.
-/
import Mathlib.Data.List.Basic
import PrototypeOrder.FileSystem.Discovery
import PrototypeOrder.Proofs.PathResolution

namespace PrototypeOrder

mutual

/-- An entry with all files in it emptied. -/
def Entry.layout : Entry → Entry
  | .file name _ => .file name []
  | .directory name entries => .directory name (Directory.layout entries)
  | .link name target => .link name target

/-- A directory with all files in it emptied. -/
def Directory.layout : List Entry → List Entry
  | [] => []
  | e :: rest => e.layout :: Directory.layout rest

end

/-- What a path leads to, with all files in it emptied. -/
def Target.layout : Target → Target
  | .file _ => .file []
  | .directory d above => .directory (Directory.layout d) (above.map Directory.layout)

/-- A file system with all files in it emptied. -/
def FileSystem.layout (fs : FileSystem) : FileSystem := { fs with top := Directory.layout fs.top }

theorem Entry.name_layout (e : Entry) : e.layout.name = e.name := by
  cases e with
  | file name contents => rw [Entry.layout, Entry.name, Entry.name]
  | directory name entries => rw [Entry.layout, Entry.name, Entry.name]
  | link name target => rw [Entry.layout]

namespace Directory

theorem layout_eq_map (d : Directory) : Directory.layout d = d.map Entry.layout := by
  induction d with
  | nil => rw [Directory.layout, List.map_nil]
  | cons e d ih => rw [Directory.layout, List.map_cons, ih]

theorem find?_layout (d : Directory) (name : String) :
    Directory.find? (Directory.layout d) name = (d.find? name).map Entry.layout := by
  rw [find?, find?, layout_eq_map, List.find?_map]
  have hname : ((fun e : Entry => decide (e.name = name)) ∘ Entry.layout) =
      fun e : Entry => decide (e.name = name) := by
    funext e
    rw [Function.comp_apply, Entry.name_layout]
  rw [hname]

end Directory

/-! ## Where paths lead -/

theorem topmost_layout (d : Directory) (above : List Directory) :
    topmost (Directory.layout d) (above.map Directory.layout) =
      Directory.layout (topmost d above) := by
  unfold topmost
  rw [List.getLast?_map]
  cases above.getLast? with
  | none => rfl
  | some top => rfl

/-- Names lead to the same place in the layout. -/
theorem resolve_layout (links : Nat) (d : Directory) (above : List Directory)
    (names : List String) :
    resolve links (Directory.layout d) (above.map Directory.layout) names =
      (resolve links d above names).map Target.layout := by
  -- a link takes its names to the path and one from the links left, so these come first
  induction links using Nat.strongRecOn generalizing d above names with
  | ind links ihlinks =>
    induction names generalizing d above with
    | nil =>
      rw [resolve_nil, resolve_nil]
      rfl
    | cons name rest ih =>
      by_cases hhere : Path.IsHere name
      · rw [resolve_here hhere, resolve_here hhere, ih]
      by_cases hup : name = ".."
      · subst hup
        cases above with
        | nil =>
          have hhere := ih d []
          rw [List.map_nil] at hhere ⊢
          rw [resolve_up_top, resolve_up_top, hhere]
        | cons parent above => rw [List.map_cons, resolve_up, resolve_up, ih]
      have hentry : Path.IsEntryName name := ⟨hhere, hup⟩
      rw [resolve_entry hentry, resolve_entry hentry, Directory.find?_layout]
      split
      · rfl
      cases d.find? name with
      | none => rfl
      | some e =>
        rw [Option.map_some]
        cases e with
        | file n contents =>
          rw [Entry.layout, lookedUp, lookedUp]
          split
          · rfl
          · rfl
        | directory n entries =>
          rw [Entry.layout, lookedUp, lookedUp]
          exact ih entries (d :: above)
        | link n target =>
          rw [Entry.layout, lookedUp, lookedUp]
          split
          · rfl
          cases links with
          | zero => split <;> rfl
          | succ links =>
            have hfollow := ihlinks links (Nat.lt_succ_self links)
            split
            · have htop := hfollow (topmost d above) [] (Path.names target ++ rest)
              rw [← topmost_layout] at htop
              exact htop
            · exact hfollow d above _

namespace FileSystem

theorem target_layout (fs : FileSystem) (path : String) :
    fs.layout.target path = (fs.target path).map Target.layout := by
  unfold target
  split
  · rfl
  split
  · rfl
  · exact resolve_layout maxLinks fs.top [] (fs.fromTop path)

theorem isDirectory_layout (fs : FileSystem) (path : String) :
    fs.layout.isDirectory path = fs.isDirectory path := by
  unfold isDirectory
  rw [target_layout]
  split
  · rfl
  · cases fs.target path with
    | error cause => rfl
    | ok target =>
      cases target with
      | file contents => rfl
      | directory d above => rfl

/-! ## What a walk comes to -/

theorem leadsToDirectory_layout (fs : FileSystem) (path : String) (e : Entry) :
    fs.layout.leadsToDirectory path e.layout = fs.leadsToDirectory path e := by
  cases e with
  | file name contents => rw [Entry.layout, leadsToDirectory, leadsToDirectory]
  | directory name entries => rw [Entry.layout, leadsToDirectory, leadsToDirectory]
  | link name target => rw [Entry.layout, leadsToDirectory, leadsToDirectory, isDirectory_layout]

theorem visit_layout (fs : FileSystem) (path : String) (d : Directory) :
    fs.layout.visit path (Directory.layout d) = fs.visit path d := by
  have hkind : ((fun e : Entry => !fs.layout.leadsToDirectory path e) ∘ Entry.layout) =
      fun e => !fs.leadsToDirectory path e := by
    funext e
    rw [Function.comp_apply, leadsToDirectory_layout]
  have hname : Entry.name ∘ Entry.layout = Entry.name := funext Entry.name_layout
  unfold visit
  rw [Directory.layout_eq_map, List.filter_map, List.map_map, hname, hkind]

theorem entered_layout (d : Directory) :
    Directory.entered (Directory.layout d) = d.entered := by
  unfold Directory.entered
  rw [Directory.layout_eq_map, List.filterMap_map]
  refine List.filterMap_congr ?_
  intro e he
  cases e with
  | file name contents => rw [Function.comp_apply, Entry.layout]
  | directory name entries => rw [Function.comp_apply, Entry.layout]
  | link name target => rw [Function.comp_apply, Entry.layout]

/-- A walk comes to the same directories in the layout. -/
theorem walk_layout (fs : FileSystem) (levels : Nat) (path : String) :
    fs.layout.walk levels path = fs.walk levels path := by
  induction levels generalizing path with
  | zero => rfl
  | succ levels ih =>
    unfold walk
    rw [target_layout]
    cases fs.target path with
    | error cause => rfl
    | ok target =>
      cases target with
      | file contents => rfl
      | directory d above =>
        show fs.layout.visit path (Directory.layout d) :: _ = _
        rw [visit_layout, entered_layout]
        simp only [ih]

theorem survey_layout (fs : FileSystem) (root : String) :
    fs.layout.survey root = fs.survey root := by
  unfold survey
  rw [walk_layout]
  rfl

/-- A search finds the same in file systems that differ only in what their files contain. -/
theorem discover_of_layout {fs fs' : FileSystem} (h : fs.layout = fs'.layout) (root : String) :
    fs'.discover root = fs.discover root := by
  rw [discover, discover, ← survey_layout fs', ← h, survey_layout]

end FileSystem

end PrototypeOrder
