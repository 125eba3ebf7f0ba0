/-
# Reports on a directory

Below a directory every pair of header and source is checked, and each is reported on, whatever
becomes of the others.

* `FilePair.value_checkAll_eq_ok_iff` : the pairs are checked one by one, and reported in order;
* `PairReport.Describes` : what the report of a pair has to say;
* `FilePair.exists_describes` : the report of a pair says it;
* `FilePair.check_congr` : a check depends on the two files alone.
-/
import Mathlib.Data.List.Forall2
import PrototypeOrder.Proofs.Discovery
import PrototypeOrder.Proofs.FrontEnds
import PrototypeOrder.Proofs.Layout

namespace PrototypeOrder

/-! ## One pair after the other -/

theorem Logged.value_andThen_eq_ok_iff {ε α β : Type} (x : Logged (Except ε α))
    (f : α → Logged (Except ε β)) (b : β) :
    (x.andThen f).value = .ok b ↔ ∃ a, x.value = .ok a ∧ (f a).value = .ok b := by
  rw [Logged.andThen]
  cases x.value with
  | error e => simp
  | ok a => simp

/-- All pairs are reported on if each is checked with a report, and these are the reports, in
order. -/
theorem FilePair.value_checkAll_eq_ok_iff (parse : Bytes → Node) (read : Reader) (root : String)
    (pairs : List FilePair) (reports : List PairReport) :
    (FilePair.checkAll parse read root pairs).value = .ok reports ↔
      List.Forall₂ (fun pair report => (pair.check parse read root).value = .ok report)
        pairs reports := by
  induction pairs generalizing reports with
  | nil =>
    rw [List.forall₂_nil_left_iff, FilePair.checkAll]
    simp [Logged.pure, eq_comm]
  | cons pair pairs ih =>
    rw [FilePair.checkAll, Logged.value_andThen_eq_ok_iff, List.forall₂_cons_left_iff]
    refine exists_congr fun report => ?_
    rw [Logged.value_andThen_eq_ok_iff]
    simp only [ih, Logged.pure, Except.ok.injEq]
    constructor
    · rintro ⟨hreport, rest, hrest, rfl⟩
      exact ⟨rest, hreport, hrest, rfl⟩
    · rintro ⟨rest, hreport, hrest, rfl⟩
      exact ⟨hreport, rest, hrest, rfl⟩

section Related

variable {α β : Type} {R : α → β → Prop}

theorem exists_forall₂ {xs : List α} (h : ∀ a ∈ xs, ∃ b, R a b) : ∃ ys, List.Forall₂ R xs ys := by
  induction xs with
  | nil => exact ⟨[], .nil⟩
  | cons a xs ih =>
    obtain ⟨b, hb⟩ := h a List.mem_cons_self
    obtain ⟨ys, hys⟩ := ih fun a' ha' => h a' (List.mem_cons_of_mem a ha')
    exact ⟨b :: ys, .cons hb hys⟩

theorem exists_getElem?_of_forall₂ {xs : List α} {ys : List β} (h : List.Forall₂ R xs ys)
    {i : Nat} {a : α} (ha : xs[i]? = some a) : ∃ b, ys[i]? = some b ∧ R a b := by
  induction h generalizing i with
  | nil => simp at ha
  | cons hab _ ih =>
    cases i with
    | zero =>
      rw [List.getElem?_cons_zero, Option.some.injEq] at ha
      subst ha
      exact ⟨_, List.getElem?_cons_zero, hab⟩
    | succ i =>
      rw [List.getElem?_cons_succ] at ha ⊢
      exact ih ha

end Related

/-! ## What a report says -/

/-- A report names the pair, and has one of three forms: the pair passes, has a violation or has
an error.  There is an error exactly when a file cannot be read, and it is the one that the
operating system gives.  Otherwise the report says what comes of a check of the two contents. -/
structure PairReport.Describes (report : PairReport) (parse : Bytes → Node) (read : Reader)
    (root : String) (pair : FilePair) : Prop where
  header : report.header = pair.header
  source : report.source = pair.source
  mode : report.mode = pair.mode
  form : (report.ok, report.violation.isSome, report.error.isSome) ∈
    [(true, false, false), (false, true, false), (false, false, true)]
  error_iff : report.error.isSome = true ↔ pair.Unreadable read root
  error_text : ∀ e, pair.read read root = .error (.io e) → report.error = some e.message
  outcome : ∀ header source, read (Path.join root pair.header) = .ok header →
    read (Path.join root pair.source) = .ok source →
    let value := (validate parse pair.header (.bytes header) (some pair.source)
      (some (.bytes source))).value
    (report.ok = true ↔ value = .ok ()) ∧
      ∀ v, report.violation = some v ↔ ∃ x, value = .error (.violation x) ∧ v = x.report

section Describes

variable {parse : Bytes → Node} {read : Reader} {root : String} {pair : FilePair}

theorem FilePair.read_of_ok {header source : Bytes}
    (hheader : read (Path.join root pair.header) = .ok header)
    (hsource : read (Path.join root pair.source) = .ok source) :
    pair.read read root = .ok (header, source) := by
  rw [FilePair.read, hheader, hsource]

theorem PairReport.describes_unreadable {e : IoError} (h : pair.read read root = .error (.io e))
    (hbad : pair.Unreadable read root) :
    (PairReport.unreadable pair.header pair.source e.message).Describes parse read root pair where
  header := rfl
  source := rfl
  mode := rfl
  form := by simp [PairReport.unreadable]
  error_iff := by simp [PairReport.unreadable, hbad]
  error_text := by
    intro e' he'
    rw [h, Except.error.injEq, ReadError.io.injEq] at he'
    rw [← he', PairReport.unreadable]
  outcome := by
    intro header source hheader hsource
    rw [FilePair.read_of_ok hheader hsource] at h
    cases h

/-- A report says what comes of a check: the pair passes, or it has a violation. -/
inductive PairReport.Tells (parse : Bytes → Node) (pair : FilePair) (header source : Bytes) :
    PairReport → Prop where
  | passed (h : (validate parse pair.header (.bytes header) (some pair.source)
      (some (.bytes source))).value = .ok ()) :
      Tells parse pair header source (.passed pair.header pair.source)
  | violated (x : Violation) (h : (validate parse pair.header (.bytes header) (some pair.source)
      (some (.bytes source))).value = .error (.violation x)) :
      Tells parse pair header source (.violated pair.header pair.source x)

/-- When both files of a pair are read, the report tells what comes of their check. -/
theorem FilePair.exists_tells {header source : Bytes}
    (h : pair.read read root = .ok (header, source)) (parse : Bytes → Node) :
    ∃ report, (pair.check parse read root).value = .ok report ∧
      report.Tells parse pair header source := by
  rcases validate_pair_cases parse pair.header header pair.source source with hok | ⟨x, hx⟩
  · refine ⟨_, ?_, .passed hok⟩
    rw [FilePair.check, h]
    simp only [PairReport.ofVerdict, hok]
  · refine ⟨_, ?_, .violated x hx⟩
    rw [FilePair.check, h]
    simp only [PairReport.ofVerdict, hx]

theorem PairReport.Tells.error_eq_none {header source : Bytes} {report : PairReport}
    (h : report.Tells parse pair header source) : report.error = none := by
  cases h with
  | passed => rfl
  | violated => rfl

theorem PairReport.Tells.describes {header source : Bytes} {report : PairReport}
    (h : report.Tells parse pair header source)
    (hread : pair.read read root = .ok (header, source)) (hgood : ¬ pair.Unreadable read root) :
    report.Describes parse read root pair := by
  have herror : ∀ e, pair.read read root = .error (.io e) → report.error = some e.message := by
    intro e he
    rw [hread] at he
    cases he
  have hcontents : ∀ header' source', read (Path.join root pair.header) = .ok header' →
      read (Path.join root pair.source) = .ok source' → header' = header ∧ source' = source := by
    intro header' source' hheader hsource
    rw [FilePair.read_of_ok hheader hsource, Except.ok.injEq, Prod.mk.injEq] at hread
    exact hread
  cases h with
  | passed hvalue =>
    refine ⟨rfl, rfl, rfl, by simp [PairReport.passed],
      by simp [PairReport.passed, hgood], herror, ?_⟩
    intro header' source' hheader hsource
    obtain ⟨rfl, rfl⟩ := hcontents header' source' hheader hsource
    simp [hvalue, PairReport.passed]
  | violated x hvalue =>
    refine ⟨rfl, rfl, rfl, by simp [PairReport.violated],
      by simp [PairReport.violated, hgood], herror, ?_⟩
    intro header' source' hheader hsource
    obtain ⟨rfl, rfl⟩ := hcontents header' source' hheader hsource
    simp [hvalue, PairReport.violated, eq_comm]

/-- A pair below a directory is always reported on. -/
theorem FilePair.exists_describes
    (hread : ∀ path, Path.hasNul path = false → read path ≠ .error .nulInPath)
    (hroot : Path.hasNul root = false) (hheader : Path.hasNul pair.header = false)
    (hsource : Path.hasNul pair.source = false) (parse : Bytes → Node) :
    ∃ report, (pair.check parse read root).value = .ok report ∧
      report.Describes parse read root pair := by
  rcases FilePair.read_cases hread hroot hheader hsource with
    ⟨e, hunread, hbad⟩ | ⟨header, source, hboth, hgood⟩
  · refine ⟨_, ?_, PairReport.describes_unreadable hunread hbad⟩
    rw [FilePair.check, hunread]
    rfl
  · obtain ⟨report, hreport, htells⟩ := FilePair.exists_tells hboth parse
    exact ⟨report, hreport, htells.describes hboth hgood⟩

/-- The files of a pair are the same to two readers. -/
structure FilePair.SameFiles (pair : FilePair) (read read' : Reader) (root : String) : Prop where
  header : read' (Path.join root pair.header) = read (Path.join root pair.header)
  source : read' (Path.join root pair.source) = read (Path.join root pair.source)

/-- A check depends on nothing but the two files. -/
theorem FilePair.check_congr {read' : Reader} (h : pair.SameFiles read read' root) :
    pair.check parse read' root = pair.check parse read root := by
  have hsame : pair.read read' root = pair.read read root := by
    rw [FilePair.read, FilePair.read, h.header, h.source]
  rw [FilePair.check, FilePair.check, hsame]

end Describes

/-! ## All pairs below a directory -/

/-- No name in a file system has a NUL. -/
structure FileSystem.NulFree (fs : FileSystem) : Prop where
  names : fs.top.Everywhere (Directory.Named fun n => Path.hasNul n = false)
  here : ∀ n ∈ fs.here, Path.hasNul n = false

instance (fs : FileSystem) : Decidable fs.NulFree :=
  decidable_of_iff (fs.top.Everywhere (Directory.Named fun n => Path.hasNul n = false) ∧
    ∀ n ∈ fs.here, Path.hasNul n = false)
    ⟨fun ⟨hnames, hhere⟩ => ⟨hnames, hhere⟩, fun ⟨hnames, hhere⟩ => ⟨hnames, hhere⟩⟩

/-- A path that is reported has no NUL if there is none to begin with. -/
theorem FileSystem.hasNul_reportedPath {fs : FileSystem} (hfs : fs.NulFree) (root : String)
    {directory name : String} (hdirectory : Path.hasNul directory = false)
    (hname : Path.hasNul name = false) :
    Path.hasNul (fs.reportedPath root directory name) = false := by
  have hslash : Path.hasNul "/" = false := by decide
  have hcurrent : Path.hasNul fs.currentPath = false := by
    unfold currentPath
    rw [Path.hasNul_append, hslash, Path.hasNul_ofNames hfs.here, Bool.or_false]
  unfold reportedPath
  apply Path.hasNul_forwardSlashes
  apply Path.hasNul_normalise
  exact Path.hasNul_join (Path.hasNul_relative hcurrent hdirectory root) hname

/-- The paths of a pair that has been found consist of names that are there. -/
theorem Discovery.hasNul_of_mem_pairs {fs : FileSystem} (hfs : fs.NulFree) {root : String}
    (hroot : Path.hasNul root = false) {pair : FilePair}
    (h : pair ∈ (ofSightings (fs.survey root)).pairs) :
    Path.hasNul pair.header = false ∧ Path.hasNul pair.source = false := by
  rw [mem_pairs_iff] at h
  obtain ⟨v, hv, hs⟩ := List.mem_flatMap.1 h
  obtain ⟨name, hname, hs⟩ := List.mem_filterMap.1 hs
  obtain ⟨stem, -, hsighting⟩ := (FileSystem.sighting?_eq_some_iff _ _ _ _ _).1 hs
  obtain ⟨way, hway, hpath, hnames⟩ := FileSystem.exists_of_mem_walk hfs.names hv
  have hdirectory : Path.hasNul v.path = false := by
    rw [hpath]
    exact Path.hasNul_below hroot hway
  rw [Sighting.mk.injEq] at hsighting
  obtain ⟨hheader, hsource⟩ := hsighting
  split at hsource
  · rename_i hmem
    rw [hheader, Option.some.inj hsource]
    exact ⟨FileSystem.hasNul_reportedPath hfs root hdirectory (hnames _ hname),
      FileSystem.hasNul_reportedPath hfs root hdirectory (hnames _ hmem)⟩
  · cases hsource

namespace FileSystem

variable {fs : FileSystem} {root : String}

theorem isDirectory_eq_true_iff :
    fs.isDirectory root = true ↔
      Path.hasNul root = false ∧ ∃ d above, fs.target root = .ok (.directory d above) := by
  rw [isDirectory]
  split
  · rename_i hnul
    simp [hnul]
  · rename_i hnul
    rw [Bool.not_eq_true] at hnul
    split
    · rename_i d above htarget
      simp [hnul, htarget]
    · rename_i hother
      simp only [Bool.false_eq_true, hnul, true_and, false_iff]
      rintro ⟨d, above, htarget⟩
      exact hother d above htarget

/-- A check of all pairs gives what has been found, with the reports of the pairs. -/
theorem value_checkPairs_eq_ok_iff (parse : Bytes → Node) (read : Reader) (found : Discovery)
    (reports : List PairReport) :
    (fs.checkPairs parse read root).value = .ok ⟨found, reports⟩ ↔
      (fs.discover root).value = .ok found ∧
        (FilePair.checkAll parse read root found.pairs).value = .ok reports := by
  rw [checkPairs]
  cases (fs.discover root).value with
  | error e => simp
  | ok d =>
    dsimp only
    cases hchecked : (FilePair.checkAll parse read root d.pairs).value with
    | error e =>
      simp only [Except.map, reduceCtorEq, Except.ok.injEq, false_iff, not_and]
      rintro rfl
      rw [hchecked]
      simp
    | ok rs =>
      simp only [Except.map, Except.ok.injEq, WorkspaceCheck.mk.injEq]
      refine and_congr_right ?_
      rintro rfl
      rw [hchecked, Except.ok.injEq]

end FileSystem

/-- **Every pair is reported on, by itself.**  A path leads to a directory, and reading gives the
contents of a file or an error of the operating system, whatever the file; no name has a NUL.
Then the check below this directory succeeds, and gives one report for each pair that a search
finds, in the order of the search, and each report describes its pair.

Let any files of the file system have other contents, or be read in another way.  The check
succeeds and finds the same pairs, and the report of a pair whose own two files are as before is
as before. -/
theorem reports_describe_pairs (fs : FileSystem) (hfs : fs.NulFree) (root : String)
    (hroot : fs.isDirectory root = true) (parse : Bytes → Node) (read : Reader)
    (hread : ∀ path, Path.hasNul path = false → read path ≠ .error .nulInPath) :
    ∃ found reports, (fs.discover root).value = .ok found ∧
      (fs.checkPairs parse read root).value = .ok ⟨found, reports⟩ ∧
      List.Forall₂ (fun pair report => PairReport.Describes report parse read root pair)
        found.pairs reports ∧
      ∀ (fs' : FileSystem) (read' : Reader), fs.layout = fs'.layout →
        (∀ path, Path.hasNul path = false → read' path ≠ .error .nulInPath) →
        ∃ reports', (fs'.checkPairs parse read' root).value = .ok ⟨found, reports'⟩ ∧
          ∀ (i : Nat) (pair : FilePair), found.pairs[i]? = some pair →
            pair.SameFiles read read' root → reports'[i]? = reports[i]? := by
  obtain ⟨hnul, -⟩ := FileSystem.isDirectory_eq_true_iff.1 hroot
  let found := Discovery.ofSightings (fs.survey root)
  have hfound : (fs.discover root).value = .ok found := by
    rw [fs.discover_eq hnul]
    rfl
  have hpaths : ∀ pair ∈ found.pairs,
      Path.hasNul pair.header = false ∧ Path.hasNul pair.source = false := fun pair hpair =>
    Discovery.hasNul_of_mem_pairs hfs hnul hpair
  -- the same argument serves for both readers
  have hreports : ∀ read : Reader,
      (∀ path, Path.hasNul path = false → read path ≠ .error .nulInPath) →
      ∃ reports, List.Forall₂ (fun (pair : FilePair) report =>
        (pair.check parse read root).value = .ok report ∧
          report.Describes parse read root pair) found.pairs reports := by
    intro read hread
    apply exists_forall₂
    intro pair hpair
    exact FilePair.exists_describes hread hnul (hpaths pair hpair).1 (hpaths pair hpair).2 parse
  obtain ⟨reports, hall⟩ := hreports read hread
  refine ⟨found, reports, hfound, ?_, hall.imp fun _ _ h => h.2, ?_⟩
  · rw [FileSystem.value_checkPairs_eq_ok_iff, FilePair.value_checkAll_eq_ok_iff]
    exact ⟨hfound, hall.imp fun _ _ h => h.1⟩
  · intro fs' read' hlayout hread'
    obtain ⟨reports', hall'⟩ := hreports read' hread'
    have hfound' : (fs'.discover root).value = .ok found := by
      rw [FileSystem.discover_of_layout hlayout, hfound]
    refine ⟨reports', ?_, ?_⟩
    · rw [FileSystem.value_checkPairs_eq_ok_iff, FilePair.value_checkAll_eq_ok_iff]
      exact ⟨hfound', hall'.imp fun _ _ h => h.1⟩
    intro i pair hpair hsame
    obtain ⟨report, hreport, hcheck, -⟩ := exists_getElem?_of_forall₂ hall hpair
    obtain ⟨report', hreport', hcheck', -⟩ := exists_getElem?_of_forall₂ hall' hpair
    rw [FilePair.check_congr hsame, hcheck, Except.ok.injEq] at hcheck'
    rw [hreport, hreport', hcheck']

/-- At `/v/w` there is a link to the directory above the current one, in which the pair of `a.h`
passes, that of `b.h` does not, and `c.c` is a link to nowhere.  All three are reported on, and what
is in `b.c` makes no difference to the report on `a.h`. -/
theorem reports_describe_pairs_mixed :
    let w (body : String) : Directory := [
      .file "a.h" (Utf8.encode "int a();"), .file "a.c" (Utf8.encode "int a()\x7b\x7d"),
      .file "b.h" (Utf8.encode "int b();"), .file "b.c" (Utf8.encode body),
      .file "c.h" [], .link "c.c" "nowhere"]
    let fs : FileSystem :=
      ⟨[.directory "w" (w ""), .directory "v" [.link "w" "/w"]], ["w"]⟩
    let fs' : FileSystem :=
      ⟨[.directory "w" (w "int b()\x7b\x7d"), .directory "v" [.link "w" "/w"]], ["w"]⟩
    fs.NulFree ∧ fs.isDirectory "/v/w" = true ∧ fs.layout = fs'.layout ∧
      ∃ found reports reports',
        (fs.checkWorkspace C.parse "/v/w").value = .ok ⟨found, reports⟩ ∧
        List.Forall₂ (fun pair report => PairReport.Describes report C.parse fs.read "/v/w" pair)
          found.pairs reports ∧
        found.pairs = [⟨"a.h", "a.c"⟩, ⟨"b.h", "b.c"⟩, ⟨"c.h", "c.c"⟩] ∧
        reports.map (fun r => (r.ok, r.violation.isSome, r.error)) =
          [(true, false, none), (false, true, none),
            (false, false, some "[Errno 2] No such file or directory: '/v/w/c.c'")] ∧
        (fs'.checkWorkspace C.parse "/v/w").value = .ok ⟨found, reports'⟩ ∧
        reports'[0]? = reports[0]? := by
  intro w fs fs'
  have hnul : fs.NulFree := by decide
  have hlayout : fs.layout = fs'.layout := rfl
  have hroot : fs.isDirectory "/v/w" = true := by decide +kernel
  obtain ⟨found, reports, hfound, hreports, hall, hother⟩ :=
    reports_describe_pairs fs hnul "/v/w" hroot C.parse fs.read
      (fun _ h => FileSystem.read_ne_nulInPath _ h)
  obtain ⟨reports', hreports', hsame⟩ := hother fs' fs'.read hlayout
    (fun _ h => FileSystem.read_ne_nulInPath _ h)
  have hsurvey : fs.survey "/v/w" =
      [⟨"a.h", some "a.c"⟩, ⟨"b.h", some "b.c"⟩, ⟨"c.h", some "c.c"⟩] := by
    decide +kernel
  have hsorted : Discovery.ofSightings (fs.survey "/v/w") =
      ⟨[⟨"a.h", "a.c"⟩, ⟨"b.h", "b.c"⟩, ⟨"c.h", "c.c"⟩], []⟩ := by
    rw [hsurvey]
    cbv
  rw [fs.discover_eq (by decide), Logged.value_after, Logged.pure, hsorted,
    Except.ok.injEq] at hfound
  subst hfound
  have hforms : (FilePair.checkAll C.parse fs.read "/v/w"
      [⟨"a.h", "a.c"⟩, ⟨"b.h", "b.c"⟩, ⟨"c.h", "c.c"⟩]).value.toOption.map
        (List.map fun r => (r.ok, r.violation.isSome, r.error)) =
      some [(true, false, none), (false, true, none),
        (false, false, some "[Errno 2] No such file or directory: '/v/w/c.c'")] := by
    decide +kernel
  rw [((FileSystem.value_checkPairs_eq_ok_iff _ _ _ _).1 hreports).2] at hforms
  have hfiles : FilePair.SameFiles ⟨"a.h", "a.c"⟩ fs.read fs'.read "/v/w" :=
    ⟨by decide +kernel, by decide +kernel⟩
  exact ⟨hnul, hroot, hlayout, _, reports, reports', hreports, hall, rfl, Option.some.inj hforms,
    hreports', hsame 0 _ rfl hfiles⟩

end PrototypeOrder
