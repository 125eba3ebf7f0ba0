/-
# The front ends agree

A header and a source are checked as a pair below a directory, by a tool that is given their
paths, and on the command line.  Each of the three reads the files on its own, names them in
its own way and has its own form for an answer.  The answers say the same.

* `Diagnostic.shown_ne_empty` : a diagnostic is never shown as nothing;
* `Violation.report_agree` : a violation is reported alike under other file names.
-/
import PrototypeOrder.C.Outline
import PrototypeOrder.CommandLine
import PrototypeOrder.FileSystem.Entry
import PrototypeOrder.FileSystem.Workspace
import PrototypeOrder.Proofs.Grounding
import PrototypeOrder.Proofs.JsonText
import PrototypeOrder.Proofs.PathNames
import PrototypeOrder.Proofs.Renaming
import PrototypeOrder.Tool.CheckFiles

namespace PrototypeOrder

/-- A file system refuses a path unread only for a NUL. -/
theorem FileSystem.read_ne_nulInPath (fs : FileSystem) {path : String}
    (h : Path.hasNul path = false) : fs.read path ≠ .error .nulInPath := by
  rw [FileSystem.read, if_neg (by simp [h])]
  split <;> simp

/-! ## Diagnostics are not empty -/

theorem Text.newline_mem_expandTabs {α : Type} {a : α} (column : Nat) (xs : List (Char × α))
    (h : ('\n', a) ∈ xs) : ('\n', a) ∈ expandTabs column xs := by
  induction xs generalizing column with
  | nil => cases h
  | cons x xs ih =>
    obtain ⟨c, b⟩ := x
    rw [expandTabs]
    rcases List.mem_cons.1 h with hx | hxs
    · cases hx
      simp
    · split
      · exact List.mem_append_right _ (ih _ hxs)
      split
      · exact List.mem_cons_of_mem _ (ih _ hxs)
      · exact List.mem_cons_of_mem _ (ih _ hxs)

namespace Diagnostic

theorem newline_mem_paintFrom {codes : List Nat} (current : List Nat) (run : List Char)
    (glyphs : List Glyph) (h : ('\n', codes) ∈ glyphs) : '\n' ∈ paintFrom current run glyphs := by
  induction glyphs generalizing current run with
  | nil => cases h
  | cons g glyphs ih =>
    obtain ⟨c, codes'⟩ := g
    rw [paintFrom]
    split
    · rename_i hc
      simp [hc]
    · rename_i hc
      have hrest : ('\n', codes) ∈ glyphs := by
        rcases List.mem_cons.1 h with hg | hrest
        · cases hg
          exact absurd rfl hc
        · exact hrest
      split
      · exact ih _ _ hrest
      · exact List.mem_append_right _ (ih _ _ hrest)

theorem newline_mem_printed (pieces : List Piece) : '\n' ∈ (printed pieces).toList := by
  rw [printed, String.toList_ofList, Text.withoutTabs]
  exact List.mem_map.2 ⟨('\n', ()), Text.newline_mem_expandTabs 0 _ (by simp), rfl⟩

theorem newline_mem_coloured (style : Style) (pieces : List Piece) :
    '\n' ∈ (coloured style pieces).toList := by
  have hend : (('\n', []) : Glyph) ∈ glyphs style pieces ++ [('\n', [])] := by simp
  rw [coloured, String.toList_ofList]
  exact newline_mem_paintFrom _ _ _ (Text.newline_mem_expandTabs 0 _ hend)

/-- What is shown of a diagnostic has at least the newline at its end. -/
theorem shown_ne_empty (style : Style) (colour : Bool) (pieces : List Piece) :
    shown style colour pieces ≠ "" := by
  have hnewline : '\n' ∈ (shown style colour pieces).toList := by
    cases colour with
    | false => exact newline_mem_printed pieces
    | true => exact newline_mem_coloured style pieces
  intro h
  rw [h] at hnewline
  cases hnewline

end Diagnostic

/-! ## Answers that agree -/

/-- The two names of a file of a pair: the one that it has below a directory, and its path. -/
inductive FilePair.Names (pair : FilePair) (root : String) : String → String → Prop where
  | header : Names pair root pair.header (Path.join root pair.header)
  | source : Names pair root pair.source (Path.join root pair.source)

/-- Two reports of a place agree when they differ at most in the name of the file. -/
structure LocationReport.Agree (names : String → String → Prop) (l l' : LocationReport) :
    Prop where
  line : l.line = l'.line
  column : l.column = l'.column
  text : l.text = l'.text
  file : names l.file l'.file

/-- Two reports of a violation agree when they are of the same kind and their places agree one
by one. -/
structure ViolationReport.Agree (names : String → String → Prop) (v v' : ViolationReport) :
    Prop where
  kind : v.kind = v'.kind
  message : v.message = v'.message
  locations : List.Forall₂ (LocationReport.Agree names) v.locations v'.locations
  file : v.file = v'.file

/-- A violation that is shown at places of the files of a pair, and only there, is reported
alike under the paths of these files. -/
theorem Violation.report_agree {pair : FilePair} {root : String} {names : String → String}
    {v : Violation} (hfile : v.file? = none)
    (hlocations : ∀ l ∈ v.locations, pair.Names root l.file (names l.file)) :
    v.report.Agree (pair.Names root) (v.rename (.ofFiles names)).report := by
  cases v with
  | emptyFile file => cases hfile
  | located fault locations =>
    refine ⟨rfl, rfl, ?_, rfl⟩
    simp only [report, rename, Violation.locations, List.map_map]
    rw [List.forall₂_map_left_iff, List.forall₂_map_right_iff, List.forall₂_same]
    exact fun l hl => ⟨rfl, rfl, rfl, hlocations l hl⟩

/-- A file of a pair cannot be read. -/
def FilePair.Unreadable (pair : FilePair) (read : Reader) (root : String) : Prop :=
  (∃ e, read (Path.join root pair.header) = .error e) ∨
    ∃ e, read (Path.join root pair.source) = .error e

/-- What the report of a pair below a directory, the report on the paths of its files, and a run
on these paths have in common. -/
structure AnswersAgree (pair : FilePair) (read : Reader) (root : String)
    (report fileReport : PairReport) (exit : CommandLine.Exit) : Prop where
  ok_iff_ok : report.ok = true ↔ fileReport.ok = true
  ok_iff_status : report.ok = true ↔ exit.status = 0
  error_iff : report.error.isSome = true ↔ pair.Unreadable read root
  fileError_iff : fileReport.error.isSome = true ↔ pair.Unreadable read root
  violations : (report.violation = none ∧ fileReport.violation = none) ∨
    ∃ v v', report.violation = some v ∧ fileReport.violation = some v' ∧
      v.Agree (pair.Names root) v'
  silent_iff : exit.output = "" ↔ exit.status = 0
  status : exit.status = 0 ∨ exit.status = 1

section Answers

variable {pair : FilePair} {read : Reader} {root : String} (style : Diagnostic.Style)
  (colour : Bool)

theorem answersAgree_passed (hread : ¬ pair.Unreadable read root) (hp sp : String) :
    AnswersAgree pair read root (.passed pair.header pair.source) (.passed hp sp) .success where
  ok_iff_ok := Iff.rfl
  ok_iff_status := by simp [PairReport.passed, CommandLine.Exit.success]
  error_iff := by simp [PairReport.passed, hread]
  fileError_iff := by simp [PairReport.passed, hread]
  violations := Or.inl ⟨rfl, rfl⟩
  silent_iff := by simp [CommandLine.Exit.success]
  status := Or.inl rfl

theorem answersAgree_violated (hread : ¬ pair.Unreadable read root) {v v' : Violation}
    (hagree : v.report.Agree (pair.Names root) v'.report) (hp sp : String)
    (pieces : List Diagnostic.Piece) :
    AnswersAgree pair read root (.violated pair.header pair.source v) (.violated hp sp v')
      (.report style colour pieces) where
  ok_iff_ok := Iff.rfl
  ok_iff_status := by simp [PairReport.violated, CommandLine.Exit.report]
  error_iff := by simp [PairReport.violated, hread]
  fileError_iff := by simp [PairReport.violated, hread]
  violations := Or.inr ⟨_, _, rfl, rfl, hagree⟩
  silent_iff := by simp [CommandLine.Exit.report, Diagnostic.shown_ne_empty]
  status := Or.inr rfl

theorem answersAgree_unreadable (hread : pair.Unreadable read root)
    (hp sp reason reason' : String) (pieces : List Diagnostic.Piece) :
    AnswersAgree pair read root (.unreadable pair.header pair.source reason)
      (.unreadable hp sp reason') (.report style colour pieces) where
  ok_iff_ok := Iff.rfl
  ok_iff_status := by simp [PairReport.unreadable, CommandLine.Exit.report]
  error_iff := by simp [PairReport.unreadable, hread]
  fileError_iff := by simp [PairReport.unreadable, hread]
  violations := Or.inl ⟨rfl, rfl⟩
  silent_iff := by simp [CommandLine.Exit.report, Diagnostic.shown_ne_empty]
  status := Or.inr rfl

end Answers

/-! ## What each front end does -/

section FrontEnds

variable {parse : Bytes → Node} {read : Reader}

/-- Files with different paths are read like the files of a pair, and then checked. -/
theorem value_validateFiles (parse : Bytes → Node) (read : Reader) {pair : FilePair}
    {root : String} (hpaths : Path.join root pair.source ≠ Path.join root pair.header) :
    (validateFiles parse read (Path.join root pair.header)
        (some (Path.join root pair.source))).value =
      match pair.read read root with
      | .error e => .error (.read e)
      | .ok (header, source) =>
        (validate parse (Path.join root pair.header) (.bytes header)
          (some (Path.join root pair.source)) (some (.bytes source))).value.mapError .check := by
  rw [validateFiles, FilePair.read]
  cases read (Path.join root pair.header) with
  | error e => rfl
  | ok header =>
    simp only [Option.some.injEq, hpaths, reduceCtorEq, or_false, if_false, Option.getD_some]
    cases read (Path.join root pair.source) with
    | error e => rfl
    | ok source => rfl

/-- What a run on two paths leaves. -/
theorem value_run (program hp sp : String) (style : Diagnostic.Style) (colour : Bool) :
    (CommandLine.run parse read [program, hp, sp] style colour).value =
      match (validateFiles parse read hp (some sp)).value with
      | .ok () => .ok .success
      | .error (.check (.violation v)) =>
        .ok (.report style colour (Diagnostic.ofViolation v))
      | .error (.read (.io e)) => .ok (.report style colour (Diagnostic.ofMessage e.brief))
      | .error f => .error f := by
  rw [CommandLine.run, CommandLine.Request.ofArguments]
  dsimp only
  split <;> simp_all

/-- What the tool answers for two paths, as JSON. -/
theorem value_checkFiles {sp : String} (hsp : sp ≠ "") (hp : String) :
    (Tool.checkFiles parse read hp sp "json").value =
      (Tool.Outcome.of (validateFiles parse read hp (some sp)).value).map fun o =>
        (o.report hp sp).json.render .unicode := by
  have hformat : Tool.Format.ofName? "json" = some .json := by decide
  have hsource : Tool.sourceOrHeader hp sp = sp := if_neg hsp
  simp only [Tool.checkFiles, hformat, hsource]
  rfl

/-- An answer in JSON is the text of one report only. -/
theorem answer_iff {sp format : String} {hp : String} {report : PairReport}
    (h : (Tool.checkFiles parse read hp sp format).value =
      .ok (report.json.render .unicode)) (r : PairReport) :
    (Tool.checkFiles parse read hp sp format).value = .ok (r.json.render .unicode) ↔
      r = report := by
  rw [h, Except.ok.injEq]
  constructor
  · intro htext
    exact (PairReport.render_inj htext).symm
  · rintro rfl
    rfl

end FrontEnds

/-! ## Pairs of files -/

/-- Two different files, given by relative paths without NUL. -/
structure FilePair.Proper (pair : FilePair) : Prop where
  distinct : pair.header ≠ pair.source
  header_relative : Path.isAbsolute pair.header = false
  source_relative : Path.isAbsolute pair.source = false
  header_noNul : Path.hasNul pair.header = false
  source_noNul : Path.hasNul pair.source = false
  source_ne_empty : pair.source ≠ ""

section Pairs

variable {pair : FilePair}

/-- The paths of a pair are different below a directory, as its names are. -/
theorem FilePair.Proper.paths_ne (h : pair.Proper) (root : String) :
    Path.join root pair.source ≠ Path.join root pair.header :=
  fun heq => h.distinct (Path.join_inj h.source_relative h.header_relative heq).symm

/-- The files of a pair are read, or the operating system does not let one of them be read. -/
theorem FilePair.read_cases {read : Reader}
    (hread : ∀ path, Path.hasNul path = false → read path ≠ .error .nulInPath) {root : String}
    (hroot : Path.hasNul root = false) (hheader : Path.hasNul pair.header = false)
    (hsource : Path.hasNul pair.source = false) :
    (∃ e, pair.read read root = .error (.io e) ∧ pair.Unreadable read root) ∨
      ∃ header source, pair.read read root = .ok (header, source) ∧
        ¬ pair.Unreadable read root := by
  have hheaderNul := hread _ (Path.hasNul_join hroot hheader)
  have hsourceNul := hread _ (Path.hasNul_join hroot hsource)
  rw [FilePair.read, Unreadable]
  cases hheader : read (Path.join root pair.header) with
  | error e =>
    cases e with
    | nulInPath => exact absurd hheader hheaderNul
    | io e => exact Or.inl ⟨e, rfl, Or.inl ⟨.io e, rfl⟩⟩
  | ok header =>
    cases hsource : read (Path.join root pair.source) with
    | error e =>
      cases e with
      | nulInPath => exact absurd hsource hsourceNul
      | io e => exact Or.inl ⟨e, rfl, Or.inr ⟨.io e, rfl⟩⟩
    | ok source => exact Or.inr ⟨header, source, rfl, by simp⟩

theorem FilePair.Proper.read_cases (h : pair.Proper) {read : Reader}
    (hread : ∀ path, Path.hasNul path = false → read path ≠ .error .nulInPath) {root : String}
    (hroot : Path.hasNul root = false) :
    (∃ e, pair.read read root = .error (.io e) ∧ pair.Unreadable read root) ∨
      ∃ header source, pair.read read root = .ok (header, source) ∧
        ¬ pair.Unreadable read root :=
  FilePair.read_cases hread hroot h.header_noNul h.source_noNul

/-- Under their paths the files of a pair are checked as they are under their names. -/
theorem FilePair.Proper.value_validate_paths (h : pair.Proper) (parse : Bytes → Node)
    (root : String) (header source : Bytes) :
    (validate parse (Path.join root pair.header) (.bytes header)
        (some (Path.join root pair.source)) (some (.bytes source))).value =
      (validate parse pair.header (.bytes header) (some pair.source)
        (some (.bytes source))).value.mapError (Failure.rename (.ofFiles (Path.join root))) := by
  have hnames : Path.join root pair.header = Path.join root pair.source ↔
      pair.header = pair.source :=
    ⟨fun heq => absurd heq.symm (h.paths_ne root), fun heq => absurd heq h.distinct⟩
  exact validate_refile (Path.join root) parse pair.header (.bytes header) (some pair.source)
    (some (.bytes source)) hnames

/-- What is reported of a pair is shown at places of its files. -/
theorem FilePair.names_of_grounded {header source : SourceFile} {v : Violation}
    (hheader : header.name = pair.header) (hsource : source.name = pair.source)
    (hv : v.Grounded header pair.source (some source)) (root : String) :
    ∀ l ∈ v.locations, pair.Names root l.file (Path.join root l.file) := by
  intro l hl
  obtain ⟨f, n, hf, -, rfl⟩ := hv.locations_isNode l hl
  have hfile : (f.location n).file = f.name := rfl
  rw [hfile]
  rcases hf with rfl | hlooks
  · rw [hheader]
    exact .header
  · obtain rfl : source = f := Option.some.inj hlooks.given
    rw [hsource]
    exact .source

/-- A violation of a pair has places, and does not name a file without one. -/
theorem Violation.Grounded.file?_eq_none {header : SourceFile} {sourceName : String}
    {source? : Option SourceFile} {v : Violation} (hv : v.Grounded header sourceName source?)
    (hne : header.name ≠ sourceName) : v.file? = none := by
  cases hv with
  | emptyFile hmode => exact absurd ((Mode.ofNames_eq_headerOnly_iff _ _).1 hmode) hne
  | _ => rfl

/-- **The front ends agree.**  A pair of files is checked below a directory, and under the paths
of its files by the tool and on the command line.  Reading gives the contents of a file or an
error of the operating system, whatever the file.

All three succeed in giving an answer, and these answers agree: the pair is accepted by all
or by none; the two reports have an error exactly when a file cannot be read, and violations
that agree place by place; a run prints nothing exactly when its status is 0, and otherwise its
status is 1.  The answer in JSON is the text of no report but the one that is meant.

What a run prints is the diagnostic on its standard output.  The record of a run is kept apart
from it, and may be shown besides: a pair that is accepted may leave a warning there. -/
theorem frontEnds_agree (parse : Bytes → Node) (read : Reader)
    (hread : ∀ path, Path.hasNul path = false → read path ≠ .error .nulInPath)
    (root : String) (hroot : Path.hasNul root = false) (pair : FilePair) (hpair : pair.Proper)
    (program : String) (style : Diagnostic.Style) (colour : Bool) :
    let hp := Path.join root pair.header
    let sp := Path.join root pair.source
    ∃ report fileReport exit,
      (pair.check parse read root).value = .ok report ∧
      (∀ r : PairReport, (Tool.checkFiles parse read hp sp "json").value =
        .ok (r.json.render .unicode) ↔ r = fileReport) ∧
      (CommandLine.run parse read [program, hp, sp] style colour).value = .ok exit ∧
      AnswersAgree pair read root report fileReport exit := by
  intro hp sp
  have hpaths := hpair.paths_ne root
  have hsp : sp ≠ "" :=
    Path.join_ne_empty_of_relative hpair.source_relative hpair.source_ne_empty root
  have hfiles := value_validateFiles parse read hpaths
  rcases hpair.read_cases hread hroot with ⟨e, hunread, hbad⟩ | ⟨header, source, hboth, hgood⟩
  · rw [hunread] at hfiles
    refine ⟨_, _, _, ?_, answer_iff ?_, ?_, answersAgree_unreadable style colour hbad hp sp
      e.message e.brief (Diagnostic.ofMessage e.brief)⟩
    · rw [FilePair.check, hunread]
      rfl
    · rw [value_checkFiles hsp, hfiles]
      rfl
    · rw [value_run, hfiles]
  · rw [hboth] at hfiles
    simp only [hpair.value_validate_paths] at hfiles
    have hexplained := validate_explained parse pair.header header (some pair.source) (some source)
    simp only [Option.map_some, Option.getD_some] at hexplained
    rcases hexplained with hok | ⟨v, hv, hgrounded⟩ | ⟨-, hmissing, -⟩
    · rw [hok] at hfiles
      refine ⟨_, _, _, ?_, answer_iff ?_, ?_, answersAgree_passed hgood hp sp⟩
      · rw [FilePair.check, hboth]
        simp only [PairReport.ofVerdict, hok]
      · rw [value_checkFiles hsp, hfiles]
        rfl
      · rw [value_run, hfiles]
        rfl
    · have hagree := Violation.report_agree (hgrounded.file?_eq_none hpair.distinct)
        (FilePair.names_of_grounded rfl rfl hgrounded root)
      rw [hv] at hfiles
      refine ⟨_, _, _, ?_, answer_iff ?_, ?_, answersAgree_violated style colour hgood hagree hp sp
        (Diagnostic.ofViolation (v.rename (.ofFiles (Path.join root))))⟩
      · rw [FilePair.check, hboth]
        simp only [PairReport.ofVerdict, hv]
      · rw [value_checkFiles hsp, hfiles]
        rfl
      · rw [value_run, hfiles]
        rfl
    · cases hmissing

/-- The bodies of `w/a.c` are in the wrong order, and all front ends say so. -/
theorem frontEnds_agree_swapped :
    let read := FileSystem.read ⟨[.directory "w" [
      .file "a.h" (Utf8.encode "int a();int b();"),
      .file "a.c" (Utf8.encode "int b()\x7b\x7dint a()\x7b\x7d")]], []⟩
    let pair : FilePair := ⟨"a.h", "a.c"⟩
    ∃ report fileReport exit,
      (pair.check C.parse read "w").value = .ok report ∧
      (∀ r : PairReport, (Tool.checkFiles C.parse read "w/a.h" "w/a.c" "json").value =
        .ok (r.json.render .unicode) ↔ r = fileReport) ∧
      (CommandLine.run C.parse read ["declorder", "w/a.h", "w/a.c"] .standard true).value =
        .ok exit ∧
      AnswersAgree pair read "w" report fileReport exit ∧ exit.status = 1 := by
  intro read pair
  have hviolated : (pair.check C.parse read "w").value.toOption.map PairReport.ok = some false := by
    decide +kernel
  have hproper : pair.Proper :=
    ⟨by decide, by decide, by decide, by decide, by decide, by decide⟩
  have hheader : Path.join "w" pair.header = "w/a.h" := by decide
  have hsource : Path.join "w" pair.source = "w/a.c" := by decide
  have hanswers := frontEnds_agree C.parse read (fun _ h => FileSystem.read_ne_nulInPath _ h) "w"
    (by decide) pair hproper "declorder" .standard true
  rw [hheader, hsource] at hanswers
  obtain ⟨report, fileReport, exit, hreport, hanswer, hrun, hagree⟩ := hanswers
  refine ⟨report, fileReport, exit, hreport, hanswer, hrun, hagree, ?_⟩
  rw [hreport] at hviolated
  have hok : report.ok = false := Option.some.inj hviolated
  have hstatus : exit.status ≠ 0 := by
    intro h
    rw [hagree.ok_iff_status.2 h] at hok
    cases hok
  exact hagree.status.resolve_left hstatus

end Pairs

end PrototypeOrder
