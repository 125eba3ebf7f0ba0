/-
# When a tool answers

The tool that checks files puts what comes of a check into words: that the files pass, a
violation, or an error of the operating system.  Only for a path with a NUL, which is refused
before the operating system is asked, it has no words, and gives no answer.

* `readError?` : what is wrong with the files of a check;
* `value_validateFiles_of_readError`, `value_validateFiles_of_read` : a check of files fails with
  that, or else succeeds or finds a violation;
* `readError?_eq_nulInPath_iff` : when a path with a NUL is met.
-/
import PrototypeOrder.Proofs.FrontEnds

namespace PrototypeOrder

/-! ## Files that cannot be read -/

/-- What is wrong with a header or, if it can be read, with a source. -/
def readError? (read : Reader) (header source : String) : Option ReadError :=
  match read header with
  | .error e => some e
  | .ok _ =>
    match read source with
    | .error e => some e
    | .ok _ => none

theorem readError?_eq_none_iff (read : Reader) (header source : String) :
    readError? read header source = none ↔
      (∃ bytes, read header = .ok bytes) ∧ ∃ bytes, read source = .ok bytes := by
  rw [readError?]
  cases read header with
  | error e => simp
  | ok headerBytes =>
    cases read source with
    | error e => simp
    | ok sourceBytes => simp

theorem readError?_eq_some_iff (read : Reader) (header source : String) (e : ReadError) :
    readError? read header source = some e ↔
      read header = .error e ∨ (∃ bytes, read header = .ok bytes) ∧ read source = .error e := by
  rw [readError?]
  cases read header with
  | error e' => simp
  | ok headerBytes =>
    cases read source with
    | error e' => simp
    | ok sourceBytes => simp

section Files

variable {read : Reader} {header source : String}

/-- A check of files fails with what is wrong with them. -/
theorem value_validateFiles_of_readError {e : ReadError}
    (h : readError? read header source = some e) (parse : Bytes → Node) :
    (validateFiles parse read header (some source)).value = .error (.read e) := by
  rw [validateFiles]
  rcases (readError?_eq_some_iff read header source e).1 h with
    hheader | ⟨⟨headerBytes, hheader⟩, hsource⟩
  · rw [hheader]
    rfl
  · have hne : source ≠ header := by
      rintro rfl
      rw [hheader] at hsource
      cases hsource
    rw [hheader]
    dsimp only
    rw [if_neg (by simp [hne]), Option.getD_some, hsource]
    rfl

/-- A check of files that can be read succeeds or finds a violation. -/
theorem value_validateFiles_of_read (h : readError? read header source = none)
    (parse : Bytes → Node) :
    let value := (validateFiles parse read header (some source)).value
    value = .ok () ∨ ∃ v, value = .error (.check (.violation v)) := by
  intro value
  obtain ⟨⟨headerBytes, hheader⟩, sourceBytes, hsource⟩ :=
    (readError?_eq_none_iff read header source).1 h
  -- the header on its own, and the header with a source, are checked alike from here on
  have hverdict : ∀ v : Verdict, value = v.ofFiles.value →
      (v.value = .ok () ∨ ∃ x, v.value = .error (.violation x)) →
      value = .ok () ∨ ∃ x, value = .error (.check (.violation x)) := by
    intro v hvalue hv
    rw [Verdict.ofFiles] at hvalue
    rcases hv with hok | ⟨x, hx⟩
    · left
      rw [hvalue, hok]
      rfl
    · right
      refine ⟨x, ?_⟩
      rw [hvalue, hx]
      rfl
  by_cases hsame : source = header
  · refine hverdict _ ?_ (validate_alone_cases parse header headerBytes)
    simp only [value, validateFiles, hheader]
    rw [if_pos (by simp [hsame])]
  · refine hverdict _ ?_ (validate_pair_cases parse header headerBytes source sourceBytes)
    simp only [value, validateFiles, hheader]
    rw [if_neg (by simp [hsame]), Option.getD_some, hsource]

end Files

/-! ## Paths with a NUL -/

/-- A file system refuses a path unread exactly for a NUL. -/
theorem FileSystem.read_eq_nulInPath_iff (fs : FileSystem) (path : String) :
    fs.read path = .error .nulInPath ↔ Path.hasNul path = true := by
  constructor
  · intro h
    by_contra hnul
    rw [Bool.not_eq_true] at hnul
    exact fs.read_ne_nulInPath hnul h
  · intro h
    rw [FileSystem.read, if_pos h]

namespace Tool

/-- A path with a NUL is going to be opened: that of the header or, once the header has been read,
that of the source. -/
def MeetsNul (read : Reader) (header source : String) : Prop :=
  Path.hasNul header = true ∨ (∃ bytes, read header = .ok bytes) ∧ Path.hasNul source = true

theorem readError?_eq_nulInPath_iff {read : Reader}
    (hread : ∀ path, read path = .error .nulInPath ↔ Path.hasNul path = true)
    (header source : String) :
    readError? read header (sourceOrHeader header source) = some .nulInPath ↔
      MeetsNul read header source := by
  rw [readError?_eq_some_iff, hread, hread, MeetsNul, sourceOrHeader]
  split
  · rename_i hempty
    -- the header stands for the source
    subst hempty
    constructor
    · rintro (hnul | ⟨-, hnul⟩)
      · exact Or.inl hnul
      · exact Or.inl hnul
    · rintro (hnul | ⟨-, hnul⟩)
      · exact Or.inl hnul
      · cases hnul
  · exact Iff.rfl

/-- The tool has words for everything but a refused path. -/
theorem exists_answer {read : Reader} {header source format : String} {f : Format}
    (hformat : Format.ofName? format = some f)
    (h : readError? read header (sourceOrHeader header source) ≠ some .nulInPath)
    (parse : Bytes → Node) :
    ∃ answer, (checkFiles parse read header source format).value = .ok answer := by
  simp only [checkFiles, hformat]
  cases herror : readError? read header (sourceOrHeader header source) with
  | none =>
    rcases value_validateFiles_of_read herror parse with hok | ⟨v, hv⟩
    · rw [hok]
      exact ⟨_, rfl⟩
    · rw [hv]
      exact ⟨_, rfl⟩
  | some e =>
    rw [value_validateFiles_of_readError herror]
    cases e with
    | io e => exact ⟨_, rfl⟩
    | nulInPath => exact absurd herror h

end Tool

/-- **The tool answers, but for a NUL.**  Reading gives the contents of a file or an error of the
operating system, and refuses a path exactly when it has a NUL.  The tool that checks files
answers whatever the paths, the format and the files are, unless it has to open a path with a
NUL; then the refusal is passed on. -/
theorem checkFiles_answers (parse : Bytes → Node) (read : Reader)
    (hread : ∀ path, read path = .error .nulInPath ↔ Path.hasNul path = true)
    (header source format : String) :
    let value := (Tool.checkFiles parse read header source format).value
    let refused := (Tool.Format.ofName? format).isSome = true ∧ Tool.MeetsNul read header source
    (refused → value = .error (.read .nulInPath)) ∧ (¬ refused → ∃ answer, value = .ok answer) := by
  intro value refused
  constructor
  · rintro ⟨hformat, hnul⟩
    obtain ⟨f, hf⟩ := Option.isSome_iff_exists.1 hformat
    have herror := (Tool.readError?_eq_nulInPath_iff hread header source).2 hnul
    simp only [value, Tool.checkFiles, hf, value_validateFiles_of_readError herror]
    rfl
  · intro hrefused
    cases hformat : Tool.Format.ofName? format with
    | none =>
      refine ⟨Tool.unknownFormat, ?_⟩
      simp only [value, Tool.checkFiles, hformat]
      rfl
    | some f =>
      apply Tool.exists_answer hformat
      rw [Ne, Tool.readError?_eq_nulInPath_iff hread]
      intro hnul
      exact hrefused ⟨by rw [hformat, Option.isSome_some], hnul⟩

/-- A header that is not there is reported, and the source with a NUL is not opened. -/
theorem checkFiles_answers_unread :
    ∃ answer, (Tool.checkFiles C.parse FileSystem.empty.read "a" "b\x00" "text").value =
      .ok answer := by
  refine (checkFiles_answers C.parse FileSystem.empty.read FileSystem.empty.read_eq_nulInPath_iff
    "a" "b\x00" "text").2 ?_
  rintro ⟨-, hnul | ⟨⟨bytes, hbytes⟩, -⟩⟩
  · cases hnul
  · cases hbytes

/-- There is no answer to a header whose path has a NUL. -/
theorem checkFiles_refuses_nul :
    (Tool.checkFiles C.parse FileSystem.empty.read "a\x00b" "" "text").value =
      .error (.read .nulInPath) := rfl

end PrototypeOrder
