/-
# Discovery is exact

A search of a directory finds every header in it and below it, outside the directories that are
left out, and pairs it with the source of its stem if the same directory has one.  It finds
each header once, and what it finds depends neither on the order in which directories list
their entries nor on where the searched directory is and how its path is spelled.

* `Discovery.mem_pairs_iff`, `Discovery.mem_unpaired_iff` : what has been seen is sorted into two
  lists, and nothing is lost or added;
* `Discovery.Exact` : what a search has to find;
* `Discovery.Exact.unique` : the files below a directory leave only one such result;
* `Discovery.Exact.of_fitsBelow` : the limit on paths makes no difference where none is too long;
* `Directory.Relisted` : one tree of directories, listed in another order.
-/
import Mathlib.Data.List.Sort
import PrototypeOrder.Proofs.DirectoryWalk

namespace PrototypeOrder

/-! ## Sorting -/

/-- Sorted by keys that are all different, a list is strictly ascending. -/
theorem pairwise_mergeSort_of_ne {α : Type} (key : α → String) {xs : List α}
    (h : xs.Pairwise fun a b => key a ≠ key b) :
    (xs.mergeSort fun a b => !decide (key b < key a)).Pairwise fun a b => key a < key b := by
  have hle : ∀ a b : α, (!decide (key b < key a)) = true ↔ key a ≤ key b := by
    intro a b
    rw [Bool.not_eq_true', decide_eq_false_iff_not, String.not_lt]
  have hsorted : (xs.mergeSort fun a b => !decide (key b < key a)).Pairwise fun a b =>
      (!decide (key b < key a)) = true := by
    apply List.pairwise_mergeSort
    · intro a b c hab hbc
      rw [hle] at hab hbc ⊢
      exact String.le_trans hab hbc
    · intro a b
      rw [Bool.or_eq_true, hle, hle]
      exact String.le_total _ _
  have hne : (xs.mergeSort fun a b => !decide (key b < key a)).Pairwise fun a b =>
      key a ≠ key b :=
    h.perm (List.mergeSort_perm _ _).symm Ne.symm
  refine hsorted.imp₂ ?_ hne
  intro a b hab hne
  rw [hle] at hab
  apply Classical.byContradiction
  intro hlt
  exact hne (String.le_antisymm hab (String.not_lt.1 hlt))

/-- A strictly ascending list is determined by its members. -/
theorem eq_of_ascending {α : Type} (key : α → String) {xs ys : List α}
    (h : xs.Pairwise fun a b => key a < key b) (h' : ys.Pairwise fun a b => key a < key b)
    (hmem : ∀ a, a ∈ xs ↔ a ∈ ys) : xs = ys := by
  have hirrefl : Std.Irrefl fun a b : α => key a < key b := ⟨fun a => String.lt_irrefl (key a)⟩
  have hantisymm : Std.Antisymm fun a b : α => key a < key b :=
    ⟨fun a b hab hba => absurd (String.lt_trans hab hba) (String.lt_irrefl (key a))⟩
  exact h.eq_of_mem_iff h' hmem

namespace Discovery

variable (ss : List Sighting)

/-- The pairs are the headers that have been seen with a source. -/
theorem mem_pairs_iff (pair : FilePair) :
    pair ∈ (ofSightings ss).pairs ↔ ⟨pair.header, some pair.source⟩ ∈ ss := by
  rw [ofSightings, List.mem_mergeSort, List.mem_filterMap]
  constructor
  · rintro ⟨⟨header, source?⟩, hs, hpair⟩
    cases source? with
    | none => cases hpair
    | some source =>
      cases hpair
      exact hs
  · intro h
    exact ⟨_, h, rfl⟩

/-- The unpaired headers are those that have been seen without a source. -/
theorem mem_unpaired_iff (path : String) :
    path ∈ (ofSightings ss).unpaired ↔ ⟨path, none⟩ ∈ ss := by
  rw [ofSightings, List.mem_mergeSort, List.mem_filterMap]
  constructor
  · rintro ⟨⟨header, source?⟩, hs, hpath⟩
    cases source? with
    | none =>
      cases hpath
      exact hs
    | some source => cases hpath
  · intro h
    exact ⟨_, h, rfl⟩

variable {ss}

theorem pairs_ascending (h : ss.Pairwise fun s t => s.header ≠ t.header) :
    (ofSightings ss).pairs.Pairwise fun p q => p.header < q.header := by
  apply pairwise_mergeSort_of_ne
  rw [List.pairwise_filterMap]
  refine h.imp ?_
  intro s t hne p hp q hq
  obtain ⟨src, -, rfl⟩ := Option.map_eq_some_iff.1 hp
  obtain ⟨src', -, rfl⟩ := Option.map_eq_some_iff.1 hq
  exact hne

theorem unpaired_ascending (h : ss.Pairwise fun s t => s.header ≠ t.header) :
    (ofSightings ss).unpaired.Pairwise (· < ·) := by
  apply pairwise_mergeSort_of_ne (fun path => path)
  rw [List.pairwise_filterMap]
  refine h.imp ?_
  intro s t hne p hp q hq
  rw [Sighting.unpaired?, Option.ite_none_right_eq_some, Option.some.injEq] at hp hq
  rw [← hp.2, ← hq.2]
  exact hne

end Discovery

/-- A pair consists of two entries of the directory at a path, none of which is a directory; its
paths are those that are reported for these entries. -/
structure FilePair.FoundAt (pair : FilePair) (fs : FileSystem) (root path : String)
    (d : Directory) (header source : Entry) : Prop where
  header_mem : header ∈ d
  source_mem : source ∈ d
  header_kind : fs.leadsToDirectory path header = false
  source_kind : fs.leadsToDirectory path source = false
  header_path : pair.header = fs.reportedPath root path header.name
  source_path : pair.source = fs.reportedPath root path source.name

/-- Every pair has been found in some directory that a walk comes to. -/
theorem Discovery.exists_foundAt {fs : FileSystem} {root : String} {d : Directory}
    {above : List Directory} (hroot : fs.target root = .ok (.directory d above))
    (hd : d.Everywhere Directory.Reachable) {pair : FilePair}
    (h : pair ∈ (ofSightings (fs.survey root)).pairs) :
    ∃ way passed d' header source, d.Entered root way passed d' ∧
      pair.FoundAt fs root (Path.below root way) d' header source := by
  rw [mem_pairs_iff, FileSystem.mem_survey_iff hroot hd] at h
  obtain ⟨way, passed, d', name, hentered, hname, hs⟩ := h
  obtain ⟨stem, -, hsighting⟩ := (FileSystem.sighting?_eq_some_iff _ _ _ _ _).1 hs
  rw [Sighting.mk.injEq] at hsighting
  obtain ⟨hheaderPath, hsourcePath⟩ := hsighting
  split at hsourcePath
  · rename_i hsource
    obtain ⟨header, hheaderMem, hheaderKind, rfl⟩ := (FileSystem.mem_fileNames_iff _ _ _ _).1 hname
    obtain ⟨source, hsourceMem, hsourceKind, heq⟩ :=
      (FileSystem.mem_fileNames_iff _ _ _ _).1 hsource
    rw [← heq, Option.some.injEq] at hsourcePath
    exact ⟨way, passed, d', header, source, hentered, hheaderMem, hsourceMem, hheaderKind,
      hsourceKind, hheaderPath, hsourcePath⟩
  · cases hsourcePath

/-! ## What there is to find -/

/-- Whether an entry is a link. -/
def Entry.isLink : Entry → Bool
  | .link _ _ => true
  | _ => false

namespace Directory

/-- There is a file of the given name in the directory at the end of a way down. -/
def HasFile (d : Directory) (way : List String) (name : String) : Prop :=
  ∃ passed d' contents, d.Below way passed d' ∧ Entry.file name contents ∈ d'

/-- There is a header at the end of a way down that is among those gone down; the stem is what comes
before its extension. -/
structure HasHeader (d : Directory) (searched : List String → Prop) (way : List String)
    (name stem : String) : Prop where
  file : d.HasFile way name
  extension : Path.splitExtension name = (stem, headerExtension)
  searched : searched way

/-- There is a source of the given stem at the end of a way down. -/
structure HasSource (d : Directory) (way : List String) (stem source : String) : Prop where
  file : d.HasFile way source
  extension : Path.splitExtension source = (stem, sourceExtension)

/-- A directory of files and directories, with different names in which there is no backslash. -/
structure Regular (d : Directory) : Prop extends Reachable d where
  backslashless : d.Named fun n => '\\' ∉ n.toList
  noLink : ∀ e ∈ d, e.isLink = false

instance (d : Directory) : Decidable d.Regular :=
  decidable_of_iff (d.Reachable ∧ (d.Named fun n => '\\' ∉ n.toList) ∧ ∀ e ∈ d, e.isLink = false)
    ⟨fun ⟨hreachable, hbackslashless, hnoLink⟩ => ⟨hreachable, hbackslashless, hnoLink⟩,
      fun ⟨hreachable, hbackslashless, hnoLink⟩ => ⟨hreachable, hbackslashless, hnoLink⟩⟩

/-- From the path `root`, the directories that are not left out all have paths that are not too
long. -/
def FitsBelow (d : Directory) (root : String) : Prop :=
  ∀ way passed d', d.Below way passed d' → Path.Unskipped way → Path.Fits root way

theorem headerExtension_eq : headerExtension = String.ofList ('.' :: ['h']) := rfl

theorem sourceExtension_eq : sourceExtension = String.ofList ('.' :: ['c']) := rfl

/-- The source of a header has the stem of the header. -/
theorem split_source_iff {name stem : String}
    (h : Path.splitExtension name = (stem, headerExtension)) (source : String) :
    Path.splitExtension source = (stem, sourceExtension) ↔ source = stem ++ sourceExtension := by
  rw [headerExtension_eq, Path.splitExtension_eq_iff (by decide)] at h
  rw [sourceExtension_eq, Path.splitExtension_eq_iff (by decide)]
  exact and_iff_left h.2

theorem Regular.mem_fileNames_iff {d : Directory} (h : d.Regular) (fs : FileSystem)
    (path name : String) :
    name ∈ (fs.visit path d).fileNames ↔ ∃ contents, Entry.file name contents ∈ d := by
  rw [FileSystem.mem_fileNames_iff]
  constructor
  · rintro ⟨e, hmem, hkind, rfl⟩
    cases e with
    | file name contents => exact ⟨contents, hmem⟩
    | directory name entries => cases hkind
    | link name target => cases h.noLink _ hmem
  · rintro ⟨contents, hmem⟩
    exact ⟨_, hmem, rfl, rfl⟩

section Regular

variable {fs : FileSystem} {root : String} {d d' : Directory} {above : List Directory}
  {way : List String} {passed : List Directory} {name : String}

theorem hasFile_iff_of_below (hd : d.Everywhere Regular) (h : d.Below way passed d')
    (fs : FileSystem) (path name : String) :
    d.HasFile way name ↔ name ∈ (fs.visit path d').fileNames := by
  rw [(hd.below h).here.mem_fileNames_iff]
  constructor
  · rintro ⟨passed', d'', contents, h', hmem⟩
    obtain rfl := h.unique h' (hd.mono fun _ h => h.distinct)
    exact ⟨contents, hmem⟩
  · rintro ⟨contents, hmem⟩
    exact ⟨passed, d', contents, h, hmem⟩

/-- The path of a file is told by its names. -/
theorem HasFile.reportedPath (h : d.HasFile way name) (hd : d.Everywhere Regular)
    (fs : FileSystem) (hroot : root ≠ "") :
    fs.reportedPath root (Path.below root way) name = Path.ofNames (way ++ [name]) := by
  obtain ⟨passed, d', contents, hbelow, hmem⟩ := h
  have hnames : Path.FileNames (way ++ [name]) :=
    hbelow.fileNames_append (hd.mono fun _ h => h.toReachable) hmem
  have hback : Path.Backslashless (way ++ [name]) :=
    hbelow.named_append (hd.mono fun _ h => h.backslashless) hmem
  rw [FileSystem.reportedPath_below fs hroot hnames, Path.forwardSlashes_ofNames hback]

/-- A survey sees the headers that are there, and with each its source if there is one. -/
theorem mem_survey_of_regular (hroot : fs.target root = .ok (.directory d above))
    (hd : d.Everywhere Regular) (s : Sighting) :
    s ∈ fs.survey root ↔
      ∃ way name stem, d.HasHeader (Path.Searched root) way name stem ∧
        s.header = Path.ofNames (way ++ [name]) ∧
        ((∃ source, d.HasSource way stem source ∧
            s.source? = some (Path.ofNames (way ++ [source]))) ∨
          (¬ ∃ source, d.HasSource way stem source) ∧ s.source? = none) := by
  have hne : root ≠ "" := (FileSystem.target_cases hroot).1
  rw [FileSystem.mem_survey_iff hroot (hd.mono fun _ h => h.toReachable)]
  constructor
  · rintro ⟨way, passed, d', name, ⟨hbelow, hsearched⟩, hname, hs⟩
    obtain ⟨stem, hstem, rfl⟩ := (FileSystem.sighting?_eq_some_iff _ _ _ _ _).1 hs
    have hfile := hasFile_iff_of_below hd hbelow fs (Path.below root way)
    refine ⟨way, name, stem, ⟨(hfile name).2 hname, hstem, hsearched⟩,
      ((hfile name).2 hname).reportedPath hd fs hne, ?_⟩
    dsimp only
    split
    · rename_i hsource
      rw [← hfile] at hsource
      refine Or.inl ⟨_, ⟨hsource, (split_source_iff hstem _).2 rfl⟩, ?_⟩
      exact congrArg some (hsource.reportedPath hd fs hne)
    · rename_i hsource
      rw [← hfile] at hsource
      refine Or.inr ⟨?_, rfl⟩
      rintro ⟨source, hsource', hsplit⟩
      rw [split_source_iff hstem] at hsplit
      exact hsource (hsplit ▸ hsource')
  · rintro ⟨way, name, stem, hheader, hpath, hsource⟩
    obtain ⟨passed, d', contents, hbelow, hmem⟩ := hheader.file
    have hfile := hasFile_iff_of_below hd hbelow fs (Path.below root way)
    refine ⟨way, passed, d', name, ⟨hbelow, hheader.searched⟩, (hfile name).1 hheader.file,
      (FileSystem.sighting?_eq_some_iff _ _ _ _ _).2 ⟨stem, hheader.extension, ?_⟩⟩
    obtain ⟨header, source?⟩ := s
    dsimp only at hpath hsource
    have hheaderPath : header = fs.reportedPath root (Path.below root way) name := by
      rw [hpath, hheader.file.reportedPath hd fs hne]
    rw [Sighting.mk.injEq]
    refine ⟨hheaderPath, ?_⟩
    rcases hsource with ⟨source, ⟨hsource, hsplit⟩, rfl⟩ | ⟨hnone, rfl⟩
    · rw [split_source_iff hheader.extension] at hsplit
      rw [← hsplit, if_pos ((hfile source).1 hsource)]
      exact congrArg some (hsource.reportedPath hd fs hne).symm
    · rw [if_neg]
      intro hmem
      exact hnone ⟨_, (hfile _).2 hmem, (split_source_iff hheader.extension _).2 rfl⟩

end Regular

end Directory

/-- What a search of a directory has to find that goes down some of the ways in it: both lists are
in the strict order of the paths; the pairs are the headers with a source of their stem, and the
unpaired headers those without; each header is in one of the lists, and there once. -/
structure Discovery.Exact (found : Discovery) (d : Directory) (searched : List String → Prop) :
    Prop where
  pairs_ascending : found.pairs.Pairwise fun p q => p.header < q.header
  unpaired_ascending : found.unpaired.Pairwise (· < ·)
  mem_pairs : ∀ pair, pair ∈ found.pairs ↔
    ∃ way name stem source, d.HasHeader searched way name stem ∧ d.HasSource way stem source ∧
      pair = ⟨Path.ofNames (way ++ [name]), Path.ofNames (way ++ [source])⟩
  mem_unpaired : ∀ path, path ∈ found.unpaired ↔
    ∃ way name stem, d.HasHeader searched way name stem ∧
      (¬ ∃ source, d.HasSource way stem source) ∧ path = Path.ofNames (way ++ [name])
  once : ∀ way name stem, d.HasHeader searched way name stem →
    (found.pairs.map FilePair.header ++ found.unpaired).count (Path.ofNames (way ++ [name])) = 1

namespace Discovery

/-- What is told apart by the path of the header is seen once. -/
theorem eq_of_header_eq {ss : List Sighting} (h : ss.Pairwise fun s t => s.header ≠ t.header)
    {s t : Sighting} (hs : s ∈ ss) (ht : t ∈ ss) (heq : s.header = t.header) : s = t := by
  have hnodup : (ss.map Sighting.header).Nodup := List.pairwise_map.2 h
  exact List.inj_on_of_nodup_map hnodup hs ht heq

/-- No path is listed twice. -/
theorem nodup_headers {ss : List Sighting} (h : ss.Pairwise fun s t => s.header ≠ t.header) :
    ((ofSightings ss).pairs.map FilePair.header ++ (ofSightings ss).unpaired).Nodup := by
  have hpairs : ((ofSightings ss).pairs.map FilePair.header).Nodup := by
    refine List.pairwise_map.2 ((pairs_ascending h).imp ?_)
    intro p q hlt heq
    rw [heq] at hlt
    exact String.lt_irrefl _ hlt
  have hunpaired : (ofSightings ss).unpaired.Nodup := by
    refine (unpaired_ascending h).imp ?_
    intro p q hlt heq
    rw [heq] at hlt
    exact String.lt_irrefl _ hlt
  refine List.nodup_append.2 ⟨hpairs, hunpaired, ?_⟩
  rintro path hpath path' hpath' rfl
  obtain ⟨pair, hpair, rfl⟩ := List.mem_map.1 hpath
  have hs := (mem_pairs_iff ss pair).1 hpair
  have ht := (mem_unpaired_iff ss pair.header).1 hpath'
  have heq := eq_of_header_eq h hs ht rfl
  cases heq

/-- A survey, sorted, finds what there is to find. -/
theorem exact_survey {fs : FileSystem} {root : String} {d : Directory} {above : List Directory}
    (hroot : fs.target root = .ok (.directory d above)) (hd : d.Everywhere Directory.Regular) :
    (ofSightings (fs.survey root)).Exact d (Path.Searched root) := by
  -- the strict order of the lists rests on this: no path is seen twice
  have honce : (fs.survey root).Pairwise fun s t => s.header ≠ t.header :=
    FileSystem.survey_pairwise hroot (hd.mono fun _ h => h.toReachable)
      (hd.mono fun _ h => h.backslashless)
  have hpairs : ∀ pair, pair ∈ (ofSightings (fs.survey root)).pairs ↔
      ∃ way name stem source, d.HasHeader (Path.Searched root) way name stem ∧
        d.HasSource way stem source ∧
        pair = ⟨Path.ofNames (way ++ [name]), Path.ofNames (way ++ [source])⟩ := by
    intro pair
    rw [mem_pairs_iff, Directory.mem_survey_of_regular hroot hd]
    constructor
    · rintro ⟨way, name, stem, hheader, hpath, ⟨source, hsource, hsourcePath⟩ | ⟨-, hnone⟩⟩
      · refine ⟨way, name, stem, source, hheader, hsource, ?_⟩
        rw [← hpath, ← Option.some.inj hsourcePath]
      · cases hnone
    · rintro ⟨way, name, stem, source, hheader, hsource, rfl⟩
      exact ⟨way, name, stem, hheader, rfl, Or.inl ⟨source, hsource, rfl⟩⟩
  have hunpaired : ∀ path, path ∈ (ofSightings (fs.survey root)).unpaired ↔
      ∃ way name stem, d.HasHeader (Path.Searched root) way name stem ∧
        (¬ ∃ source, d.HasSource way stem source) ∧ path = Path.ofNames (way ++ [name]) := by
    intro path
    rw [mem_unpaired_iff, Directory.mem_survey_of_regular hroot hd]
    constructor
    · rintro ⟨way, name, stem, hheader, hpath, ⟨source, -, hsome⟩ | ⟨hnone, -⟩⟩
      · cases hsome
      · exact ⟨way, name, stem, hheader, hnone, hpath⟩
    · rintro ⟨way, name, stem, hheader, hnone, rfl⟩
      exact ⟨way, name, stem, hheader, rfl, Or.inr ⟨hnone, rfl⟩⟩
  refine ⟨pairs_ascending honce, unpaired_ascending honce, hpairs, hunpaired, ?_⟩
  intro way name stem hheader
  refine List.count_eq_one_of_mem (nodup_headers honce) (List.mem_append.2 ?_)
  by_cases hsource : ∃ source, d.HasSource way stem source
  · obtain ⟨source, hsource⟩ := hsource
    left
    exact List.mem_map.2 ⟨_, (hpairs _).2 ⟨way, name, stem, source, hheader, hsource, rfl⟩, rfl⟩
  · right
    exact (hunpaired _).2 ⟨way, name, stem, hheader, hsource, rfl⟩

/-- What is exact depends on the headers and the sources there are, and on nothing else. -/
theorem Exact.of_hasHeader_iff {found : Discovery} {d d' : Directory}
    {searched searched' : List String → Prop} (h : found.Exact d searched)
    (hheader : ∀ way name stem,
      d.HasHeader searched way name stem ↔ d'.HasHeader searched' way name stem)
    (hsource : ∀ way stem source, d.HasSource way stem source ↔ d'.HasSource way stem source) :
    found.Exact d' searched' := by
  refine ⟨h.pairs_ascending, h.unpaired_ascending, ?_, ?_, ?_⟩
  · intro pair
    simp only [h.mem_pairs, hheader, hsource]
  · intro path
    simp only [h.mem_unpaired, hheader, hsource]
  · intro way name stem hname
    exact h.once way name stem ((hheader way name stem).2 hname)

/-- Only one result is exact. -/
theorem Exact.unique {found found' : Discovery} {d : Directory} {searched : List String → Prop}
    (h : found.Exact d searched) (h' : found'.Exact d searched) : found = found' := by
  have hpairs : found.pairs = found'.pairs := by
    apply eq_of_ascending FilePair.header h.pairs_ascending h'.pairs_ascending
    intro pair
    rw [h.mem_pairs, h'.mem_pairs]
  have hunpaired : found.unpaired = found'.unpaired := by
    apply eq_of_ascending (fun path => path) h.unpaired_ascending h'.unpaired_ascending
    intro path
    rw [h.mem_unpaired, h'.mem_unpaired]
  cases found
  cases found'
  dsimp only at hpairs hunpaired
  rw [hpairs, hunpaired]

/-- A result that is exact for one tree is exact for another one with the same files. -/
theorem Exact.of_hasFile_iff {found : Discovery} {d d' : Directory}
    {searched : List String → Prop} (h : found.Exact d searched)
    (hfiles : ∀ way name, d.HasFile way name ↔ d'.HasFile way name) :
    found.Exact d' searched := by
  refine h.of_hasHeader_iff ?_ ?_
  · intro way name stem
    constructor
    · rintro ⟨hfile, hextension, hsearched⟩
      exact ⟨(hfiles way name).1 hfile, hextension, hsearched⟩
    · rintro ⟨hfile, hextension, hsearched⟩
      exact ⟨(hfiles way name).2 hfile, hextension, hsearched⟩
  · intro way stem source
    constructor
    · rintro ⟨hfile, hextension⟩
      exact ⟨(hfiles way source).1 hfile, hextension⟩
    · rintro ⟨hfile, hextension⟩
      exact ⟨(hfiles way source).2 hfile, hextension⟩

/-- If no path is too long, the headers are those with no directory on the way that is left out. -/
theorem Exact.of_fitsBelow {found : Discovery} {d : Directory} {root : String}
    (h : found.Exact d (Path.Searched root)) (hfits : d.FitsBelow root) :
    found.Exact d Path.Unskipped := by
  refine h.of_hasHeader_iff ?_ fun _ _ _ => Iff.rfl
  intro way name stem
  constructor
  · rintro ⟨hfile, hextension, hsearched⟩
    exact ⟨hfile, hextension, hsearched.unskipped⟩
  · rintro ⟨⟨passed, d', contents, hbelow, hmem⟩, hextension, hunskipped⟩
    exact ⟨⟨passed, d', contents, hbelow, hmem⟩, hextension, hunskipped,
      hfits way passed d' hbelow hunskipped⟩

end Discovery

/-! ## Listed in another order -/

namespace Directory

/-- The same tree of directories, in which any directory may list its entries in another
order. -/
inductive Relisted : Directory → Directory → Prop where
  | nil : Relisted [] []
  | keep (e : Entry) {d d' : Directory} (h : Relisted d d') : Relisted (e :: d) (e :: d')
  | inside (name : String) {entries entries' d d' : Directory}
      (hentries : Relisted entries entries') (h : Relisted d d') :
      Relisted (.directory name entries :: d) (.directory name entries' :: d')
  | swap (e e' : Entry) (d : Directory) : Relisted (e :: e' :: d) (e' :: e :: d)
  | trans {d d' d'' : Directory} (h : Relisted d d') (h' : Relisted d' d'') : Relisted d d''

namespace Relisted

variable {d d' : Directory}

theorem refl (d : Directory) : Relisted d d := by
  induction d with
  | nil => exact .nil
  | cons e d ih => exact .keep e ih

theorem symm (h : Relisted d d') : Relisted d' d := by
  induction h with
  | nil => exact .nil
  | keep e _ ih => exact .keep e ih
  | inside name _ _ ihentries ih => exact .inside name ihentries ih
  | swap e e' d => exact .swap e' e d
  | trans _ _ ih ih' => exact .trans ih' ih

theorem names_perm (h : Relisted d d') : (d.map Entry.name).Perm (d'.map Entry.name) := by
  induction h with
  | nil => exact .nil
  | keep e _ ih => exact ih.cons e.name
  | inside name _ _ _ ih => exact ih.cons name
  | swap e e' d => exact .swap e'.name e.name _
  | trans _ _ ih ih' => exact ih.trans ih'

/-- The entry that stands for another one after relisting: a directory may have been relisted
itself. -/
inductive StandsFor : Entry → Entry → Prop where
  | same (e : Entry) : StandsFor e e
  | directory (name : String) {entries entries' : Directory} (h : Relisted entries entries') :
      StandsFor (.directory name entries) (.directory name entries')

theorem StandsFor.trans {e e' e'' : Entry} (h : StandsFor e e') (h' : StandsFor e' e'') :
    StandsFor e e'' := by
  cases h with
  | same => exact h'
  | directory name hentries =>
    cases h' with
    | same => exact .directory name hentries
    | directory _ hentries' => exact .directory name (hentries.trans hentries')

/-- Every entry is still there. -/
theorem exists_of_mem (h : Relisted d d') {e : Entry} (he : e ∈ d) :
    ∃ e' ∈ d', StandsFor e e' := by
  induction h generalizing e with
  | nil => cases he
  | keep x _ ih =>
    rcases List.mem_cons.1 he with rfl | he
    · exact ⟨e, List.mem_cons_self, .same e⟩
    · obtain ⟨e', he', hstands⟩ := ih he
      exact ⟨e', List.mem_cons_of_mem x he', hstands⟩
  | inside name hentries _ _ ih =>
    rcases List.mem_cons.1 he with rfl | he
    · exact ⟨_, List.mem_cons_self, .directory name hentries⟩
    · obtain ⟨e', he', hstands⟩ := ih he
      exact ⟨e', List.mem_cons_of_mem _ he', hstands⟩
  | swap x y d =>
    refine ⟨e, ?_, .same e⟩
    simp only [List.mem_cons] at he ⊢
    rcases he with rfl | rfl | he
    · exact Or.inr (Or.inl rfl)
    · exact Or.inl rfl
    · exact Or.inr (Or.inr he)
  | trans _ _ ih ih' =>
    obtain ⟨e', he', hstands⟩ := ih he
    obtain ⟨e'', he'', hstands'⟩ := ih' he'
    exact ⟨e'', he'', hstands.trans hstands'⟩

/-- A directory below is still there, relisted. -/
theorem exists_below {x : Directory} {way : List String} {passed : List Directory}
    (h : Relisted d d') (hbelow : d.Below way passed x) :
    ∃ passed' x', d'.Below way passed' x' ∧ Relisted x x' := by
  induction hbelow generalizing d' with
  | here d => exact ⟨[], d', .here d', h⟩
  | inside hname _ ih =>
    obtain ⟨e', he', hstands⟩ := h.exists_of_mem hname
    cases hstands with
    | same =>
      obtain ⟨passed', x', hbelow', hx⟩ := ih (.refl _)
      exact ⟨_, x', .inside he' hbelow', hx⟩
    | directory name hentries =>
      obtain ⟨passed', x', hbelow', hx⟩ := ih hentries
      exact ⟨_, x', .inside he' hbelow', hx⟩

theorem hasFile (h : Relisted d d') {way : List String} {name : String}
    (hfile : d.HasFile way name) : d'.HasFile way name := by
  obtain ⟨passed, x, contents, hbelow, hmem⟩ := hfile
  obtain ⟨passed', x', hbelow', hx⟩ := h.exists_below hbelow
  obtain ⟨e', he', hstands⟩ := hx.exists_of_mem hmem
  cases hstands with
  | same => exact ⟨passed', x', contents, hbelow', he'⟩

theorem regular (h : Relisted d d') (hd : d.Regular) : d'.Regular := by
  have hnamed : ∀ p : String → Prop, d.Named p → d'.Named p := by
    intro p hp e' he'
    have hname : e'.name ∈ d.map Entry.name :=
      h.names_perm.mem_iff.2 (List.mem_map_of_mem he')
    obtain ⟨e, he, heq⟩ := List.mem_map.1 hname
    rw [← heq]
    exact hp e he
  refine ⟨⟨h.names_perm.nodup hd.distinct, hnamed _ hd.fileName⟩, hnamed _ hd.backslashless, ?_⟩
  intro e' he'
  obtain ⟨e, he, hstands⟩ := h.symm.exists_of_mem he'
  cases hstands with
  | same => exact hd.noLink e' he
  | directory => rfl

theorem regular_everywhere (h : Relisted d d') (hd : d.Everywhere Regular) :
    d'.Everywhere Regular := by
  intro way passed x' hbelow'
  obtain ⟨passed', x, hbelow, hx⟩ := h.symm.exists_below hbelow'
  exact hx.symm.regular (hd way passed' x hbelow)

end Relisted

end Directory

/-! ## Searching a file system -/

/-- A search gives what a survey sees, sorted. -/
theorem FileSystem.discover_eq (fs : FileSystem) {root : String}
    (hnul : Path.hasNul root = false) :
    fs.discover root =
      Logged.after
        (.found (Discovery.ofSightings (fs.survey root)).pairs.length
          (Discovery.ofSightings (fs.survey root)).unpaired.length root)
        (.pure (.ok (Discovery.ofSightings (fs.survey root)))) := by
  rw [FileSystem.discover, if_neg (by simp [hnul])]

/-- **Discovery is exact.**  A path leads to a directory, from the top or from the current one and
through whatever there is on the way.  In this directory and all below it there are files and
directories only, with different names in which there is no backslash.  A search finds the headers
below the path and their sources, each once and in the order of the paths: those at the end of a way
on which no directory is left out, as long as the operating system takes the paths of these
directories.  It finds the same, with the same record, when directories list their entries in any
other order, in whatever file system. -/
theorem discover_exact (fs : FileSystem) (root : String) (hnul : Path.hasNul root = false)
    (d : Directory) (above : List Directory)
    (hroot : fs.target root = .ok (.directory d above))
    (hd : d.Everywhere Directory.Regular) :
    (∃ found, (fs.discover root).value = .ok found ∧ found.Exact d (Path.Searched root) ∧
        (d.FitsBelow root → found.Exact d Path.Unskipped)) ∧
      ∀ (fs' : FileSystem) (d' : Directory) (above' : List Directory),
        fs'.target root = .ok (.directory d' above') → d.Relisted d' →
          fs'.discover root = fs.discover root := by
  have hexact := Discovery.exact_survey hroot hd
  rw [fs.discover_eq hnul]
  refine ⟨⟨_, rfl, hexact, hexact.of_fitsBelow⟩, ?_⟩
  intro fs' d' above' hroot' hrelisted
  have hexact' := Discovery.exact_survey hroot' (hrelisted.regular_everywhere hd)
  have hfiles : ∀ way name, d'.HasFile way name ↔ d.HasFile way name := fun way name =>
    ⟨hrelisted.symm.hasFile, hrelisted.hasFile⟩
  rw [fs'.discover_eq hnul, (hexact'.of_hasFile_iff hfiles).unique hexact]

/-- Beside the current directory there is a directory `w`, with a header and its source, a header
whose source is a directory, one in a directory that is left out, and a name that is only an
extension.  One pair and one header are found, also when the entries are listed the other way
round. -/
theorem discover_exact_nested :
    let d : Directory := [
      .directory "build" [.file "q.h" [], .file "q.c" []],
      .directory "s" [.file "a.b.c" [], .file ".h" [], .file "a.b.h" [], .file "z.h" [],
        .directory "z.c" []]]
    let d' : Directory := [
      .directory "s" [.file ".h" [], .file "a.b.c" [], .file "a.b.h" [], .file "z.h" [],
        .directory "z.c" []],
      .directory "build" [.file "q.h" [], .file "q.c" []]]
    let fs : FileSystem := ⟨[.directory "u" [], .directory "w" d], ["u"]⟩
    let fs' : FileSystem := ⟨[.directory "w" d', .directory "u" []], ["u"]⟩
    d.Everywhere Directory.Regular ∧ d.FitsBelow "../w" ∧ d.Relisted d' ∧
      (∃ found, (fs.discover "../w").value = .ok found ∧ found.Exact d Path.Unskipped ∧
        found = ⟨[⟨"s/a.b.h", "s/a.b.c"⟩], ["s/z.h"]⟩) ∧
      fs'.discover "../w" = fs.discover "../w" := by
  intro d d' fs fs'
  have hregular : d.Everywhere Directory.Regular := by decide
  have hfits : d.FitsBelow "../w" := by
    intro way passed x hbelow hway
    cases hbelow with
    | here => decide
    | inside hname hbelow =>
      obtain ⟨hentered, -⟩ := List.forall_mem_cons.1 hway
      simp only [d, List.mem_cons, Entry.directory.injEq, List.not_mem_nil, or_false] at hname
      rcases hname with ⟨rfl, rfl⟩ | ⟨rfl, rfl⟩
      · exact absurd (by decide) hentered
      · cases hbelow with
        | here => decide
        | inside hname hbelow =>
          simp only [List.mem_cons, Entry.directory.injEq, reduceCtorEq, List.not_mem_nil,
            or_false, false_or] at hname
          obtain ⟨rfl, rfl⟩ := hname
          cases hbelow with
          | here => decide
          | inside hname => cases hname
  have hrelisted : d.Relisted d' :=
    .trans (.swap _ _ _) (.inside _ (.swap _ _ _) (.refl _))
  obtain ⟨⟨found, hfound, -, hexact⟩, hsame⟩ :=
    discover_exact fs "../w" (by decide) d [fs.top] rfl hregular
  refine ⟨hregular, hfits, hrelisted, ⟨found, hfound, hexact hfits, ?_⟩,
    hsame fs' d' [fs'.top] rfl hrelisted⟩
  have hcomputed : (fs.discover "../w").value =
      .ok ⟨[⟨"s/a.b.h", "s/a.b.c"⟩], ["s/z.h"]⟩ := by decide +kernel
  rw [hcomputed] at hfound
  exact (Except.ok.inj hfound).symm

end PrototypeOrder
