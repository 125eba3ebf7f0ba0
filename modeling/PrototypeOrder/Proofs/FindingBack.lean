/-
# What has been found is found again

A search tells the files of a pair by their paths as they are seen from the searched directory, and
a check joins these paths to that of the directory and opens the files again.  This leads back to
the files that the search has come across if none of their names, and none on the way to them, has
a backslash: in the paths of a pair every backslash has become a slash.

* `Entry.Holds` : what there is to read at an entry of a directory;
* `FileSystem.holds_of_read` : the path of an entry leads to this entry;
* `FilePair.FoundAt.names_iff` : the paths of a pair are those of its files exactly when there is
  no backslash;
* `FilePair.FoundAt.join_header`, `FilePair.FoundAt.join_source` : and then a check opens the paths
  at which the search has seen the files.
-/
import PrototypeOrder.Proofs.WorkspaceReports

namespace PrototypeOrder

/-- What there is to read at an entry of a directory: the contents of a file, or those of the file
that a link leads to. -/
inductive Entry.Holds (d : Directory) (above : List Directory) : Entry → Bytes → Prop where
  | file (name : String) (contents : Bytes) : Holds d above (.file name contents) contents
  | link (name target : String) {links : Nat} {contents : Bytes} (hlinks : links ≤ maxLinks)
      (h : resolve links d above [name] = .ok (.file contents)) :
      Holds d above (.link name target) contents

/-! ## The way to an entry -/

namespace FileSystem

variable {fs : FileSystem} {root path : String} {d d' : Directory} {above passed : List Directory}
  {way : List String}

theorem target_of_read {contents : Bytes} (h : fs.read path = .ok contents) :
    fs.target path = .ok (.file contents) := by
  rw [read] at h
  split at h
  · cases h
  split at h
  · rename_i htarget
    rw [htarget, Except.ok.inj h]
  · cases h
  · cases h

/-- What is read at the path of an entry of a directory is what this entry holds. -/
theorem holds_of_read (hpath : fs.target path = .ok (.directory d above)) (hd : d.Reachable)
    {e : Entry} (he : e ∈ d) (hkind : fs.leadsToDirectory path e = false) {contents : Bytes}
    (hread : fs.read (Path.join path e.name) = .ok contents) : e.Holds d above contents := by
  have hname : Path.IsFileName e.name := hd.fileName e he
  have htarget := target_of_read hread
  obtain ⟨links, hlinks, hjoin⟩ := target_join hpath
  rw [hjoin _ hname.relative, hname.names] at htarget
  split at htarget
  · cases htarget
  cases e with
  | file name own =>
    rcases hd.resolve_file he links above with hown | hown
    · rw [Entry.name, hown] at htarget
      cases htarget
      exact .file name contents
    · rw [Entry.name, hown] at htarget
      cases htarget
  | directory name entries => cases hkind
  | link name target => exact .link name target hlinks htarget

/-- Every file in the directories that a search comes to can be read at its path. -/
def Readable (fs : FileSystem) (root : String) (d : Directory) : Prop :=
  ∀ way passed d' e, d.Entered root way passed d' → e ∈ d' →
    fs.leadsToDirectory (Path.below root way) e = false →
    ∃ contents, fs.read (Path.join (Path.below root way) e.name) = .ok contents

end FileSystem

/-! ## The paths of a pair -/

namespace FilePair.FoundAt

variable {fs : FileSystem} {root : String} {d d' : Directory} {above passed : List Directory}
  {way : List String} {pair : FilePair} {header source : Entry}

/-- The paths of a pair consist of the names that the search has passed exactly when none of them
has a backslash. -/
theorem names_iff (h : pair.FoundAt fs root (Path.below root way) d' header source)
    (hroot : root ≠ "") (hd : d.Everywhere Directory.Reachable) (hbelow : d.Below way passed d') :
    Path.names pair.header = way ++ [header.name] ∧
        Path.names pair.source = way ++ [source.name] ↔
      Path.Backslashless (way ++ [header.name]) ∧ Path.Backslashless (way ++ [source.name]) := by
  rw [h.header_path, h.source_path,
    FileSystem.names_reportedPath_iff fs hroot (hbelow.fileNames_append hd h.header_mem),
    FileSystem.names_reportedPath_iff fs hroot (hbelow.fileNames_append hd h.source_mem)]

/-- Without a backslash, the path of a file that is reported leads from the searched directory to
the path at which the search has seen the file. -/
theorem join_reportedPath (fs : FileSystem) (hroot : root ≠ "") {name : String}
    (h : Path.FileNames (way ++ [name])) (hback : Path.Backslashless (way ++ [name])) :
    Path.join root (fs.reportedPath root (Path.below root way) name) =
      Path.join (Path.below root way) name := by
  have hne : way ++ [name] ≠ [] := by simp
  rw [FileSystem.reportedPath_below fs hroot h, Path.forwardSlashes_ofNames hback,
    ← Path.below_eq_join hne h, Path.below_concat]

theorem join_header (h : pair.FoundAt fs root (Path.below root way) d' header source)
    (hroot : root ≠ "") (hd : d.Everywhere Directory.Reachable) (hbelow : d.Below way passed d')
    (hback : Path.Backslashless (way ++ [header.name])) :
    Path.join root pair.header = Path.join (Path.below root way) header.name := by
  rw [h.header_path]
  exact join_reportedPath fs hroot (hbelow.fileNames_append hd h.header_mem) hback

theorem join_source (h : pair.FoundAt fs root (Path.below root way) d' header source)
    (hroot : root ≠ "") (hd : d.Everywhere Directory.Reachable) (hbelow : d.Below way passed d')
    (hback : Path.Backslashless (way ++ [source.name])) :
    Path.join root pair.source = Path.join (Path.below root way) source.name := by
  rw [h.source_path]
  exact join_reportedPath fs hroot (hbelow.fileNames_append hd h.source_mem) hback

end FilePair.FoundAt

/-- **Paths lead back, but for backslashes.**  A path leads to a directory, from the top or from the
current one and through whatever there is on the way.  In this directory and all below it names are
different and such as entries can have; every file that the search sees can be read.

Each pair that a search finds consists of two entries of one directory.  The paths of the pair are
the names that lead to these entries exactly when none of the names has a backslash; and then a
check of the pair opens the very paths at which the search has seen the two entries, reads what they
hold, and reports no error. -/
theorem pairs_lead_back (fs : FileSystem) (root : String) (hnul : Path.hasNul root = false)
    (d : Directory) (above : List Directory)
    (hroot : fs.target root = .ok (.directory d above))
    (hd : d.Everywhere Directory.Reachable) (hreadable : fs.Readable root d) :
    ∃ found, (fs.discover root).value = .ok found ∧
      ∀ pair ∈ found.pairs, ∃ way passed d' header source,
        d.Entered root way passed d' ∧
        pair.FoundAt fs root (Path.below root way) d' header source ∧
        (Path.names pair.header = way ++ [header.name] ∧
            Path.names pair.source = way ++ [source.name] ↔
          Path.Backslashless (way ++ [header.name]) ∧
            Path.Backslashless (way ++ [source.name])) ∧
        (Path.Backslashless (way ++ [header.name]) →
          Path.Backslashless (way ++ [source.name]) →
          Path.join root pair.header = Path.join (Path.below root way) header.name ∧
            Path.join root pair.source = Path.join (Path.below root way) source.name ∧
            ∃ headerBytes sourceBytes, header.Holds d' (passed ++ above) headerBytes ∧
              source.Holds d' (passed ++ above) sourceBytes ∧
              pair.read fs.read root = .ok (headerBytes, sourceBytes) ∧
              ∀ parse, ∃ report, (pair.check parse fs.read root).value = .ok report ∧
                report.error = none) := by
  have hne : root ≠ "" := (FileSystem.target_cases hroot).1
  rw [fs.discover_eq hnul]
  refine ⟨_, rfl, ?_⟩
  intro pair hpair
  obtain ⟨way, passed, d', header, source, hentered, hfound⟩ :=
    Discovery.exists_foundAt hroot hd hpair
  have hbelow := hentered.below
  refine ⟨way, passed, d', header, source, hentered, hfound, hfound.names_iff hne hd hbelow, ?_⟩
  intro hheader hsource
  have hheaderJoin := hfound.join_header hne hd hbelow hheader
  have hsourceJoin := hfound.join_source hne hd hbelow hsource
  obtain ⟨headerBytes, hheaderRead⟩ :=
    hreadable way passed d' header hentered hfound.header_mem hfound.header_kind
  obtain ⟨sourceBytes, hsourceRead⟩ :=
    hreadable way passed d' source hentered hfound.source_mem hfound.source_kind
  have htarget := FileSystem.target_below hroot hd hbelow hentered.searched.fits
  have hreachable : d'.Reachable := (hd.below hbelow).here
  have hread : pair.read fs.read root = .ok (headerBytes, sourceBytes) := by
    apply FilePair.read_of_ok
    · rw [hheaderJoin, hheaderRead]
    · rw [hsourceJoin, hsourceRead]
  refine ⟨hheaderJoin, hsourceJoin, headerBytes, sourceBytes, ?_, ?_, hread, ?_⟩
  · exact FileSystem.holds_of_read htarget hreachable hfound.header_mem hfound.header_kind
      hheaderRead
  · exact FileSystem.holds_of_read htarget hreachable hfound.source_mem hfound.source_kind
      hsourceRead
  · intro parse
    obtain ⟨report, hreport, htells⟩ := FilePair.exists_tells hread parse
    exact ⟨report, hreport, htells.error_eq_none⟩

/-- From the directory above the current one, `s/a.h` has a source that is a link to the absolute
path of a file.  The pair is found, and read through the link. -/
theorem pairs_lead_back_through_link :
    let s : Directory := [.file "a.h" (Utf8.encode "h"), .link "a.c" "/w/x.c"]
    let d : Directory := [.directory "s" s, .file "x.c" (Utf8.encode "c")]
    let fs : FileSystem := ⟨[.directory "w" d], ["w", "s"]⟩
    let pair : FilePair := ⟨"s/a.h", "s/a.c"⟩
    d.Everywhere Directory.Reachable ∧ fs.Readable ".." d ∧
      (fs.discover "..").value = .ok ⟨[pair], []⟩ ∧
      pair.read fs.read ".." = .ok (Utf8.encode "h", Utf8.encode "c") ∧
      ∃ report, (pair.check C.parse fs.read "..").value = .ok report ∧ report.error = none := by
  intro s d fs pair
  have hd : d.Everywhere Directory.Reachable := by decide
  have hplain : d.Everywhere (Directory.Named fun n => '\\' ∉ n.toList) := by decide
  have hreadable : fs.Readable ".." d := by
    intro way passed d' e hentered he hkind
    cases hentered.below with
    | here =>
      rcases List.mem_cons.1 he with rfl | he
      · cases hkind
      · rw [List.mem_singleton.1 he]
        exact ⟨Utf8.encode "c", by decide +kernel⟩
    | inside hname hbelow =>
      obtain ⟨rfl, rfl⟩ : _ = "s" ∧ _ = s := by simpa [d] using hname
      cases hbelow with
      | here =>
        rcases List.mem_cons.1 he with rfl | he
        · exact ⟨Utf8.encode "h", by decide +kernel⟩
        · rw [List.mem_singleton.1 he]
          exact ⟨Utf8.encode "c", by decide +kernel⟩
      | inside hname => simp [s] at hname
  obtain ⟨found, hfound, hpairs⟩ :=
    pairs_lead_back fs ".." (by decide) d [fs.top] rfl hd hreadable
  have hdiscover : (fs.discover "..").value = .ok ⟨[pair], []⟩ := by decide +kernel
  rw [hdiscover, Except.ok.injEq] at hfound
  subst hfound
  obtain ⟨way, passed, d', header, source, hentered, hat, -, hback⟩ :=
    hpairs pair List.mem_cons_self
  obtain ⟨-, -, headerBytes, sourceBytes, -, -, -, hreport⟩ :=
    hback (hentered.below.named_append hplain hat.header_mem)
      (hentered.below.named_append hplain hat.source_mem)
  exact ⟨hd, hreadable, hdiscover, by decide +kernel, hreport C.parse⟩

/-- Below `w` there are the files `a\b.h` and `a\b.c`, and both can be read.  They are found as a
pair, but under other paths, at which there is nothing; so the pair is reported with an error. -/
theorem backslash_leads_astray :
    let d : Directory := [.file "a\\b.h" [], .file "a\\b.c" []]
    let fs : FileSystem := ⟨[.directory "w" d], []⟩
    let pair : FilePair := ⟨"a/b.h", "a/b.c"⟩
    d.Everywhere Directory.Reachable ∧ fs.read "w/a\\b.h" = .ok [] ∧ fs.read "w/a\\b.c" = .ok [] ∧
      (fs.discover "w").value = .ok ⟨[pair], []⟩ ∧
      (pair.check C.parse fs.read "w").value =
        .ok (.unreadable "a/b.h" "a/b.c" "[Errno 2] No such file or directory: 'w/a/b.h'") := by
  intro d fs pair
  refine ⟨by decide, by decide +kernel, by decide +kernel, by decide +kernel, by decide +kernel⟩

end PrototypeOrder
