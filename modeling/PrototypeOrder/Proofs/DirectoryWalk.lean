/-
# What a walk comes to

A walk goes by paths: it lists the directory at a path, and goes on with the paths of the
directories that it enters.  In a tree of directories it comes to every directory below the first
one, but for those that are left out and those whose path has become too long, and to each of
them once.

* `Directory.Entered` : the directories that a walk comes to;
* `FileSystem.mem_walk_iff`, `FileSystem.mem_survey_iff` : what is seen there, and nothing else;
* `FileSystem.survey_pairwise` : no path is seen twice;
* `FileSystem.exists_of_mem_walk` : all names come from the file system, whatever it looks like.
-/
import PrototypeOrder.FileSystem.Discovery
import PrototypeOrder.Proofs.PathResolution
import PrototypeOrder.Proofs.RelativePaths

namespace PrototypeOrder

/-! ## Directories that are entered -/

theorem Directory.mem_entered_iff (d : Directory) (name : String) :
    name ∈ d.entered ↔
      name ∉ skippedDirectories ∧ ∃ entries, Entry.directory name entries ∈ d := by
  unfold entered
  rw [List.mem_filterMap]
  constructor
  · rintro ⟨e, he, hname⟩
    cases e with
    | file n contents => cases hname
    | link n target => cases hname
    | directory n entries =>
      rw [Option.ite_none_left_eq_some, Option.some.injEq] at hname
      obtain ⟨hentered, rfl⟩ := hname
      exact ⟨hentered, entries, he⟩
  · rintro ⟨hentered, entries, he⟩
    exact ⟨_, he, if_neg hentered⟩

theorem Directory.entered_nodup {d : Directory} (h : d.Distinct) : d.entered.Nodup := by
  have hnames : d.Pairwise fun e e' => e.name ≠ e'.name := List.pairwise_map.1 h
  unfold entered
  refine List.pairwise_filterMap.2 (hnames.imp ?_)
  intro e e' hne n hn n' hn'
  cases e with
  | file m contents => cases hn
  | link m target => cases hn
  | directory m entries =>
    cases e' with
    | file m' contents => cases hn'
    | link m' target => cases hn'
    | directory m' entries' =>
      rw [Option.ite_none_left_eq_some, Option.some.injEq] at hn hn'
      rw [← hn.2, ← hn'.2]
      exact hne

/-- No directory on a way is left out. -/
def Path.Unskipped (way : List String) : Prop := ∀ n ∈ way, n ∉ skippedDirectories

/-- A search from the path `root` goes down a way: no directory on it is left out, and its path is
not too long. -/
structure Path.Searched (root : String) (way : List String) : Prop where
  unskipped : Path.Unskipped way
  fits : Path.Fits root way

/-- A way is gone down if its first directory is entered, and the rest of it is gone down from
there. -/
theorem Path.searched_cons_iff {way : List String} (h : Path.FileNames way)
    (root name : String) :
    Path.Searched root (name :: way) ↔
      name ∉ skippedDirectories ∧ Path.Fits root [name] ∧
        Path.Searched (Path.join root name) way := by
  constructor
  · rintro ⟨hunskipped, hfits⟩
    obtain ⟨hname, hway⟩ := List.forall_mem_cons.1 hunskipped
    obtain ⟨hfirst, hrest⟩ := (Path.fits_cons_iff h root name).1 hfits
    exact ⟨hname, hfirst, hway, hrest⟩
  · rintro ⟨hname, hfirst, hway, hrest⟩
    exact ⟨List.forall_mem_cons.2 ⟨hname, hway⟩, (Path.fits_cons_iff h root name).2 ⟨hfirst, hrest⟩⟩

/-- A search from the path `root` of the directory `d` comes to the directory `d'`. -/
structure Directory.Entered (root : String) (d : Directory) (way : List String)
    (passed : List Directory) (d' : Directory) : Prop where
  below : d.Below way passed d'
  searched : Path.Searched root way

namespace FileSystem

variable {fs : FileSystem} {root path : String} {d : Directory} {above : List Directory}

/-! ## The walk -/

theorem walk_of_directory (hpath : fs.target path = .ok (.directory d above)) (levels : Nat) :
    fs.walk (levels + 1) path =
      fs.visit path d :: d.entered.flatMap fun name => fs.walk levels (Path.join path name) := by
  rw [walk, hpath]

theorem walk_of_error {cause : Cause} (hpath : fs.target path = .error cause) (levels : Nat) :
    fs.walk levels path = [] := by
  cases levels with
  | zero => rfl
  | succ levels => rw [walk, hpath]

/-- The walk goes on in a directory that is entered if its path is not too long, and there is
nothing to see at a path that is. -/
theorem walk_of_entered (hpath : fs.target path = .ok (.directory d above)) (hd : d.Reachable)
    {name : String} (hname : name ∈ d.entered) (levels : Nat) :
    ∃ entries, Entry.directory name entries ∈ d ∧
      (Path.Fits path [name] ∧
          fs.target (Path.join path name) = .ok (.directory entries (d :: above)) ∨
        fs.walk levels (Path.join path name) = []) := by
  obtain ⟨-, entries, he⟩ := (d.mem_entered_iff name).1 hname
  have hinside := target_directory hpath hd he
  refine ⟨entries, he, ?_⟩
  split at hinside
  · rename_i hfits
    exact Or.inl ⟨hfits, hinside⟩
  · exact Or.inr (walk_of_error hinside levels)

/-- A walk down so many levels sees the directories that are entered on so many levels. -/
theorem mem_walk_iff (hpath : fs.target path = .ok (.directory d above))
    (hd : d.Everywhere Directory.Reachable) (levels : Nat) (v : Visit) :
    v ∈ fs.walk levels path ↔
      ∃ way passed d', d.Entered path way passed d' ∧ way.length < levels ∧
        v = fs.visit (Path.below path way) d' := by
  induction levels generalizing path d above with
  | zero =>
    constructor
    · intro h
      cases h
    · rintro ⟨way, -, -, -, hlength, -⟩
      omega
  | succ levels ih =>
    rw [walk_of_directory hpath, List.mem_cons, List.mem_flatMap]
    -- a way down is empty, or its first name is that of a directory in which the walk goes on
    constructor
    · rintro (rfl | ⟨name, hname, hv⟩)
      · have hnil : Path.Searched path [] :=
          ⟨List.forall_mem_nil _, List.forall_mem_nil _, (target_cases hpath).2.1⟩
        exact ⟨[], [], d, ⟨.here d, hnil⟩, Nat.succ_pos levels, rfl⟩
      · have hentered := ((d.mem_entered_iff name).1 hname).1
        obtain ⟨entries, he, ⟨hfirst, hinside⟩ | hnone⟩ :=
          walk_of_entered hpath hd.here hname levels
        · obtain ⟨way, passed, d', ⟨hbelow, hsearched⟩, hlength, rfl⟩ :=
            (ih hinside (hd.inside he)).1 hv
          have hway : Path.FileNames way := hbelow.fileNames (hd.inside he)
          refine ⟨name :: way, passed ++ [d], d', ⟨.inside he hbelow, ?_⟩, ?_, rfl⟩
          · exact (Path.searched_cons_iff hway path name).2 ⟨hentered, hfirst, hsearched⟩
          · exact Nat.succ_lt_succ hlength
        · rw [hnone] at hv
          cases hv
    · rintro ⟨way, passed, d', ⟨hbelow, hsearched⟩, hlength, rfl⟩
      cases hbelow with
      | here => exact Or.inl rfl
      | @inside _ entries _ name way passed he hbelow =>
        have hway : Path.FileNames way := hbelow.fileNames (hd.inside he)
        obtain ⟨hentered, hfirst, hrest⟩ := (Path.searched_cons_iff hway path name).1 hsearched
        have hinside := target_directory hpath hd.here he
        rw [if_pos hfirst] at hinside
        refine Or.inr ⟨name, (d.mem_entered_iff name).2 ⟨hentered, entries, he⟩, ?_⟩
        refine (ih hinside (hd.inside he)).2 ⟨way, passed, d', ⟨hbelow, hrest⟩, ?_, rfl⟩
        exact Nat.lt_of_succ_lt_succ hlength

/-- The limit on paths ends a walk before the limit on levels does. -/
theorem mem_walk_pathLimit_iff (hroot : fs.target root = .ok (.directory d above))
    (hd : d.Everywhere Directory.Reachable) (v : Visit) :
    v ∈ fs.walk pathLimit root ↔
      ∃ way passed d', d.Entered root way passed d' ∧ v = fs.visit (Path.below root way) d' := by
  rw [mem_walk_iff hroot hd]
  constructor
  · rintro ⟨way, passed, d', hentered, -, hv⟩
    exact ⟨way, passed, d', hentered, hv⟩
  · rintro ⟨way, passed, d', hentered, hv⟩
    have hlength := hentered.searched.fits.length_lt (hentered.below.fileNames hd)
    exact ⟨way, passed, d', hentered, hlength, hv⟩

/-- What is seen in a directory inside has a path with the name of that directory. -/
theorem exists_path_of_mem_walk (hpath : fs.target path = .ok (.directory d above))
    (hd : d.Everywhere Directory.Reachable) {levels : Nat} {name : String}
    (hname : name ∈ d.entered) {v : Visit} (hv : v ∈ fs.walk levels (Path.join path name)) :
    ∃ way, Path.FileNames (name :: way) ∧ v.path = Path.below path (name :: way) := by
  obtain ⟨entries, he, ⟨-, hinside⟩ | hnone⟩ := walk_of_entered hpath hd.here hname levels
  · obtain ⟨way, passed, d', hentered, -, rfl⟩ := (mem_walk_iff hinside (hd.inside he) _ _).1 hv
    have hway : Path.FileNames way := hentered.below.fileNames (hd.inside he)
    exact ⟨way, List.forall_mem_cons.2 ⟨hd.here.fileName _ he, hway⟩, rfl⟩
  · rw [hnone] at hv
    cases hv

/-- No directory is seen twice. -/
theorem walk_pairwise (hpath : fs.target path = .ok (.directory d above))
    (hd : d.Everywhere Directory.Reachable) (levels : Nat) :
    (fs.walk levels path).Pairwise fun v w => v.path ≠ w.path := by
  induction levels generalizing path d above with
  | zero => exact List.Pairwise.nil
  | succ levels ih =>
    have hne : path ≠ "" := (target_cases hpath).1
    rw [walk_of_directory hpath, List.pairwise_cons, List.pairwise_flatMap]
    refine ⟨?_, ?_, ?_⟩
    · -- the directory itself, and one further down
      intro v hv heq
      obtain ⟨name, hname, hv⟩ := List.mem_flatMap.1 hv
      obtain ⟨way, hway, hpathv⟩ := exists_path_of_mem_walk hpath hd hname hv
      have hnil : Path.FileNames [] := List.forall_mem_nil _
      rw [hpathv] at heq
      cases (Path.below_inj hne hnil hway).1 heq
    · intro name hname
      obtain ⟨entries, he, ⟨-, hinside⟩ | hnone⟩ := walk_of_entered hpath hd.here hname levels
      · exact ih hinside (hd.inside he)
      · rw [hnone]
        exact List.Pairwise.nil
    · -- two directories inside: the ways differ in the first name
      refine (Directory.entered_nodup hd.here.distinct).imp_of_mem ?_
      intro name name' hname hname' hdiffer v hv w hw heq
      obtain ⟨way, hway, hpathv⟩ := exists_path_of_mem_walk hpath hd hname hv
      obtain ⟨way', hway', hpathw⟩ := exists_path_of_mem_walk hpath hd hname' hw
      rw [hpathv, hpathw, Path.below_inj hne hway hway'] at heq
      exact hdiffer (List.cons.inj heq).1

/-! ## What is seen in a directory -/

theorem mem_fileNames_iff (fs : FileSystem) (path : String) (d : Directory) (name : String) :
    name ∈ (fs.visit path d).fileNames ↔
      ∃ e ∈ d, fs.leadsToDirectory path e = false ∧ e.name = name := by
  unfold visit
  rw [List.mem_map]
  constructor
  · rintro ⟨e, he, hname⟩
    obtain ⟨hmem, hkind⟩ := List.mem_filter.1 he
    exact ⟨e, hmem, by simpa using hkind, hname⟩
  · rintro ⟨e, hmem, hkind, hname⟩
    exact ⟨e, List.mem_filter.2 ⟨hmem, by simpa using hkind⟩, hname⟩

/-- A name is seen as a header if it is cut before the extension of headers. -/
theorem sighting?_eq_some_iff (fs : FileSystem) (root : String) (v : Visit) (name : String)
    (s : Sighting) :
    fs.sighting? root v name = some s ↔
      ∃ stem, Path.splitExtension name = (stem, headerExtension) ∧
        s = ⟨fs.reportedPath root v.path name, if stem ++ sourceExtension ∈ v.fileNames then
          some (fs.reportedPath root v.path (stem ++ sourceExtension)) else none⟩ := by
  rw [sighting?]
  obtain ⟨stem, extension⟩ := Path.splitExtension name
  dsimp only
  split
  · rename_i hextension
    rw [Option.some.injEq]
    constructor
    · rintro rfl
      exact ⟨stem, by rw [hextension], rfl⟩
    · rintro ⟨stem', hsplit, rfl⟩
      rw [Prod.mk.injEq] at hsplit
      rw [hsplit.1]
  · rename_i hextension
    constructor
    · intro h
      cases h
    · rintro ⟨stem', hsplit, -⟩
      rw [Prod.mk.injEq] at hsplit
      exact absurd hsplit.2 hextension

/-- A survey sees the headers among the names in the directories that are entered. -/
theorem mem_survey_iff (hroot : fs.target root = .ok (.directory d above))
    (hd : d.Everywhere Directory.Reachable) (s : Sighting) :
    s ∈ fs.survey root ↔
      ∃ way passed d' name, d.Entered root way passed d' ∧
        name ∈ (fs.visit (Path.below root way) d').fileNames ∧
        fs.sighting? root (fs.visit (Path.below root way) d') name = some s := by
  unfold survey
  rw [List.mem_flatMap]
  constructor
  · rintro ⟨v, hv, hs⟩
    obtain ⟨way, passed, d', hentered, rfl⟩ := (mem_walk_pathLimit_iff hroot hd v).1 hv
    obtain ⟨name, hname, hs⟩ := List.mem_filterMap.1 hs
    exact ⟨way, passed, d', name, hentered, hname, hs⟩
  · rintro ⟨way, passed, d', name, hentered, hname, hs⟩
    exact ⟨_, (mem_walk_pathLimit_iff hroot hd _).2 ⟨way, passed, d', hentered, rfl⟩,
      List.mem_filterMap.2 ⟨name, hname, hs⟩⟩

/-! ## The paths that are reported -/

theorem isAbsolute_currentPath (fs : FileSystem) : Path.isAbsolute fs.currentPath = true := by
  unfold currentPath
  rw [Path.isAbsolute_append (by decide)]
  rfl

/-- A file below the searched directory is reported by the names on the way to it, in which slashes
stand for backslashes. -/
theorem reportedPath_below (fs : FileSystem) (hroot : root ≠ "") {way : List String}
    {name : String} (h : Path.FileNames (way ++ [name])) :
    fs.reportedPath root (Path.below root way) name =
      Path.forwardSlashes (Path.ofNames (way ++ [name])) := by
  unfold reportedPath
  rw [Path.normalise_join_relative fs.isAbsolute_currentPath hroot h]

/-- The path that is reported for a file has the names on the way to it exactly when none of them
has a backslash. -/
theorem names_reportedPath_iff (fs : FileSystem) (hroot : root ≠ "") {way : List String}
    {name : String} (h : Path.FileNames (way ++ [name])) :
    Path.names (fs.reportedPath root (Path.below root way) name) = way ++ [name] ↔
      Path.Backslashless (way ++ [name]) := by
  rw [reportedPath_below fs hroot h]
  exact Path.names_forwardSlashes_iff (by simp) h.slashless

/-! ## What a survey sees is seen once -/

section Once

variable {d' : Directory} {way : List String} {passed : List Directory}

/-- The names of the path of a file in a directory that is entered. -/
theorem names_of_mem_fileNames (hroot : root ≠ "") (hd : d.Everywhere Directory.Reachable)
    (hback : d.Everywhere (Directory.Named fun n => '\\' ∉ n.toList))
    (hbelow : d.Below way passed d') {name : String}
    (h : name ∈ (fs.visit (Path.below root way) d').fileNames) :
    Path.names (fs.reportedPath root (Path.below root way) name) = way ++ [name] := by
  obtain ⟨e, he, -, rfl⟩ := (mem_fileNames_iff _ _ _ _).1 h
  rw [names_reportedPath_iff fs hroot (hbelow.fileNames_append hd he)]
  exact hbelow.named_append hback he

/-- The headers in one directory have different paths. -/
theorem sightings_pairwise (hroot : root ≠ "") (hd : d.Everywhere Directory.Reachable)
    (hback : d.Everywhere (Directory.Named fun n => '\\' ∉ n.toList))
    (hbelow : d.Below way passed d') :
    (fs.sightings root (fs.visit (Path.below root way) d')).Pairwise fun s t =>
      s.header ≠ t.header := by
  have hnames : (fs.visit (Path.below root way) d').fileNames.Nodup :=
    (hd.below hbelow).here.distinct.sublist (List.filter_sublist.map Entry.name)
  unfold sightings
  refine List.pairwise_filterMap.2 (hnames.imp_of_mem ?_)
  intro name name' hname hname' hne s hs t ht heq
  obtain ⟨stem, -, rfl⟩ := (sighting?_eq_some_iff _ _ _ _ _).1 hs
  obtain ⟨stem', -, rfl⟩ := (sighting?_eq_some_iff _ _ _ _ _).1 ht
  have hpaths := names_of_mem_fileNames hroot hd hback hbelow hname
  have hpaths' := names_of_mem_fileNames hroot hd hback hbelow hname'
  have heq : fs.reportedPath root (Path.below root way) name =
    fs.reportedPath root (Path.below root way) name' := heq
  rw [heq, hpaths', List.append_cancel_left_eq, List.cons.injEq] at hpaths
  exact hne hpaths.1.symm

/-- A survey sees no path twice. -/
theorem survey_pairwise (hroot : fs.target root = .ok (.directory d above))
    (hd : d.Everywhere Directory.Reachable)
    (hback : d.Everywhere (Directory.Named fun n => '\\' ∉ n.toList)) :
    (fs.survey root).Pairwise fun s t => s.header ≠ t.header := by
  have hne : root ≠ "" := (target_cases hroot).1
  have hheader : ∀ v ∈ fs.walk pathLimit root, ∀ s ∈ fs.sightings root v,
      ∃ way name, v.path = Path.below root way ∧ Path.names s.header = way ++ [name] := by
    intro v hv s hs
    obtain ⟨way, passed, d', hentered, rfl⟩ := (mem_walk_pathLimit_iff hroot hd v).1 hv
    obtain ⟨name, hname, hs⟩ := List.mem_filterMap.1 hs
    obtain ⟨stem, -, rfl⟩ := (sighting?_eq_some_iff _ _ _ _ _).1 hs
    exact ⟨way, name, rfl, names_of_mem_fileNames hne hd hback hentered.below hname⟩
  unfold survey
  refine List.pairwise_flatMap.2 ⟨?_, (walk_pairwise hroot hd pathLimit).imp_of_mem ?_⟩
  · intro v hv
    obtain ⟨way, passed, d', hentered, rfl⟩ := (mem_walk_pathLimit_iff hroot hd v).1 hv
    exact sightings_pairwise hne hd hback hentered.below
  · -- the way to a directory can be read off the paths of the headers in it
    intro v w hv hw hdiffer s hs t ht heq
    obtain ⟨way, name, hpathv, hnames⟩ := hheader v hv s hs
    obtain ⟨way', name', hpathw, hnames'⟩ := hheader w hw t ht
    rw [heq, hnames'] at hnames
    rw [hpathv, hpathw, List.append_inj_left' hnames rfl] at hdiffer
    exact hdiffer rfl

end Once

/-! ## Where the names come from -/

/-- The names on the way to a directory that a walk comes to, and those in it, have what all names
in the file system have.  The file system need not be in order otherwise. -/
theorem exists_of_mem_walk {p : String → Prop} (hfs : fs.top.Everywhere (Directory.Named p))
    {levels : Nat} {v : Visit} (h : v ∈ fs.walk levels path) :
    ∃ way, (∀ n ∈ way, p n) ∧ v.path = Path.below path way ∧ ∀ n ∈ v.fileNames, p n := by
  induction levels generalizing path with
  | zero => cases h
  | succ levels ih =>
    unfold walk at h
    split at h
    · rename_i d above hpath
      have hd : d.Named p := (everywhere_of_target hpath hfs).here
      rcases List.mem_cons.1 h with rfl | h
      · refine ⟨[], List.forall_mem_nil _, rfl, ?_⟩
        intro n hn
        obtain ⟨e, he, -, rfl⟩ := (mem_fileNames_iff _ _ _ _).1 hn
        exact hd e he
      · obtain ⟨name, hname, h⟩ := List.mem_flatMap.1 h
        obtain ⟨-, entries, he⟩ := (d.mem_entered_iff name).1 hname
        obtain ⟨way, hway, hpathv, hnames⟩ := ih h
        exact ⟨name :: way, List.forall_mem_cons.2 ⟨hd _ he, hway⟩, hpathv, hnames⟩
    · cases h

end FileSystem

end PrototypeOrder
