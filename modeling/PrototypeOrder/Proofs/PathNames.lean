/-
# The names of a path

A path and the list of its names determine each other as long as no name has a slash in it.
A name cut before its extension can be put together again, and what the cut gives is known
from the characters alone.

* `Path.names_ofNames` : the names of a path made of names;
* `Path.IsFileName` : the names that an entry of a directory can have;
* `Path.join_inj`, `Path.names_join` : paths below a directory;
* `Path.names_forwardSlashes_iff` : turning backslashes into slashes keeps the names of a path
  only if there is nothing to turn;
* `Path.splitExtension_eq_iff` : what a name and its extension look like.
-/
import PrototypeOrder.FileSystem.Path

namespace PrototypeOrder

/-! ## Lists cut at a separator -/

/-- A list without the separator is its only part. -/
theorem split_of_notMem {α : Type} [DecidableEq α] {sep : α} {xs : List α} (h : sep ∉ xs) :
    split sep xs = [xs] := by
  induction xs with
  | nil => rfl
  | cons x xs ih =>
    rw [List.mem_cons, not_or] at h
    rw [split, if_neg (Ne.symm h.1), ih h.2]

/-- No part has the separator in it. -/
theorem notMem_of_mem_split {α : Type} [DecidableEq α] {sep : α} {xs part : List α}
    (h : part ∈ split sep xs) : sep ∉ part := by
  induction xs generalizing part with
  | nil =>
    rw [List.mem_singleton.1 h]
    exact List.not_mem_nil
  | cons x xs ih =>
    rw [split] at h
    split at h
    · rcases List.mem_cons.1 h with rfl | h
      · exact List.not_mem_nil
      · exact ih h
    · rename_i hx
      cases hs : PrototypeOrder.split sep xs with
      | nil => exact absurd hs (split_ne_nil sep xs)
      | cons first rest =>
        rw [hs] at h
        rcases List.mem_cons.1 h with rfl | h
        · rw [List.mem_cons, not_or]
          exact ⟨Ne.symm hx, ih (hs ▸ List.mem_cons_self)⟩
        · exact ih (hs ▸ List.mem_cons_of_mem first h)

/-- The parts with separators between them are the list that has been cut. -/
theorem intercalate_split {α : Type} [DecidableEq α] (sep : α) (xs : List α) :
    [sep].intercalate (split sep xs) = xs := by
  induction xs with
  | nil => exact List.intercalate_singleton
  | cons x xs ih =>
    rw [split]
    split
    · rename_i hx
      rw [List.intercalate_cons_of_ne_nil (split_ne_nil sep xs), ih, hx]
      rfl
    · cases hs : PrototypeOrder.split sep xs with
      | nil => exact absurd hs (split_ne_nil sep xs)
      | cons part parts =>
        rw [hs] at ih
        have hhead : ∀ rest : List (List α),
            [sep].intercalate ((x :: part) :: rest) = x :: [sep].intercalate (part :: rest) := by
          intro rest
          cases rest with
          | nil => rw [List.intercalate_singleton, List.intercalate_singleton]
          | cons next rest =>
            rw [List.intercalate_cons_cons, List.intercalate_cons_cons]
            rfl
        rw [hhead, ih]

namespace Path

/-! ## Names -/

/-- No name has a slash in it. -/
def Slashless (names : List String) : Prop := ∀ n ∈ names, '/' ∉ n.toList

/-- The names of a path have no slash. -/
theorem slashless_names (path : String) : Slashless (names path) := by
  intro n hn
  obtain ⟨part, hpart, rfl⟩ := List.mem_map.1 hn
  rw [String.toList_ofList]
  exact notMem_of_mem_split hpart

theorem names_of_slashless {path : String} (h : '/' ∉ path.toList) : names path = [path] := by
  rw [names, split_of_notMem h, List.map_singleton, String.ofList_toList]

/-- A path that goes on after a slash. -/
theorem names_append_slash (path rest : String) :
    names (path ++ "/" ++ rest) = names path ++ names rest := by
  have hchars : (path ++ "/" ++ rest).toList = path.toList ++ '/' :: rest.toList := by
    simp [String.toList_append]
  rw [names, hchars, split_append_cons, List.map_append, names, names]

/-- A path made of names has these names. -/
theorem names_ofNames {ns : List String} (hne : ns ≠ []) (h : Slashless ns) :
    names (ofNames ns) = ns := by
  induction ns with
  | nil => exact absurd rfl hne
  | cons n ns ih =>
    have hn : names n = [n] := names_of_slashless (h n List.mem_cons_self)
    cases ns with
    | nil => rw [ofNames, String.intercalate_singleton, hn]
    | cons m ns =>
      have hrest : names (ofNames (m :: ns)) = m :: ns :=
        ih (List.cons_ne_nil m ns) fun x hx => h x (List.mem_cons_of_mem n hx)
      rw [ofNames, String.intercalate_cons_cons, ← ofNames, names_append_slash, hn, hrest]
      rfl

/-- The path made of the names of a path is this path. -/
theorem ofNames_names (path : String) : ofNames (names path) = path := by
  apply String.toList_inj.1
  have hchars : (names path).map String.toList = split '/' path.toList := by
    rw [names, List.map_map]
    have hid : String.toList ∘ String.ofList = id := funext fun _ => String.toList_ofList
    rw [hid, List.map_id]
  have hslash : "/".toList = ['/'] := rfl
  rw [ofNames, String.toList_intercalate, hchars, hslash, intercalate_split]

/-- What a path that is made of names consists of: the slashes between them and their
characters. -/
theorem mem_ofNames {ns : List String} {c : Char} (h : c ∈ (ofNames ns).toList) :
    c = '/' ∨ ∃ n ∈ ns, c ∈ n.toList := by
  induction ns with
  | nil => cases h
  | cons n ns ih =>
    cases ns with
    | nil =>
      rw [ofNames, String.intercalate_singleton] at h
      exact Or.inr ⟨n, List.mem_cons_self, h⟩
    | cons m ns =>
      rw [ofNames, String.intercalate_cons_cons, ← ofNames] at h
      simp only [String.toList_append, List.mem_append] at h
      rcases h with (hn | hslash) | hrest
      · exact Or.inr ⟨n, List.mem_cons_self, hn⟩
      · exact Or.inl (List.mem_singleton.1 hslash)
      · rcases ih hrest with hslash | ⟨x, hx, hc⟩
        · exact Or.inl hslash
        · exact Or.inr ⟨x, List.mem_cons_of_mem n hx, hc⟩

/-- The characters of a name are in the path. -/
theorem mem_ofNames_of_mem {ns : List String} {n : String} {c : Char} (hn : n ∈ ns)
    (hc : c ∈ n.toList) : c ∈ (ofNames ns).toList := by
  induction ns with
  | nil => cases hn
  | cons m ns ih =>
    cases ns with
    | nil =>
      rw [ofNames, String.intercalate_singleton, ← List.mem_singleton.1 hn]
      exact hc
    | cons k ns =>
      rw [ofNames, String.intercalate_cons_cons, ← ofNames]
      simp only [String.toList_append, List.mem_append]
      rcases List.mem_cons.1 hn with rfl | hn
      · exact Or.inl (Or.inl hc)
      · exact Or.inr (ih hn)

/-! ## File names -/

/-- Names that stand for the directory itself. -/
def IsHere (name : String) : Prop := name = "" ∨ name = "."

/-- Names that are looked up in a directory. -/
structure IsEntryName (name : String) : Prop where
  not_here : ¬ IsHere name
  not_up : name ≠ ".."

/-- Names that an entry of a directory can have. -/
structure IsFileName (name : String) : Prop extends IsEntryName name where
  slashless : '/' ∉ name.toList

instance (name : String) : Decidable (IsFileName name) :=
  decidable_of_iff (¬ (name = "" ∨ name = ".") ∧ name ≠ ".." ∧ '/' ∉ name.toList)
    ⟨fun ⟨hhere, hup, hslash⟩ => ⟨⟨hhere, hup⟩, hslash⟩,
      fun ⟨⟨hhere, hup⟩, hslash⟩ => ⟨hhere, hup, hslash⟩⟩

theorem IsEntryName.ne_empty {name : String} (h : IsEntryName name) : name ≠ "" :=
  fun hempty => h.not_here (Or.inl hempty)

theorem IsFileName.names {name : String} (h : IsFileName name) : names name = [name] :=
  names_of_slashless h.slashless

/-- Names of entries. -/
def FileNames (ns : List String) : Prop := ∀ n ∈ ns, IsFileName n

theorem FileNames.slashless {ns : List String} (h : FileNames ns) : Slashless ns :=
  fun n hn => (h n hn).slashless

theorem ofNames_ne_empty {ns : List String} (hne : ns ≠ []) (h : FileNames ns) :
    ofNames ns ≠ "" := by
  intro hempty
  have hnames := names_ofNames hne h.slashless
  rw [hempty] at hnames
  exact (h "" (hnames ▸ List.mem_cons_self)).ne_empty rfl

/-! ## Paths below a directory -/

/-- A path without slashes is relative. -/
theorem isAbsolute_of_slashless {path : String} (h : '/' ∉ path.toList) :
    isAbsolute path = false := by
  rw [isAbsolute]
  cases hchars : path.toList with
  | nil => rfl
  | cons c cs =>
    have hc : c ≠ '/' := by
      rintro rfl
      exact h (by rw [hchars]; exact List.mem_cons_self)
    simp [hc]

theorem IsFileName.relative {name : String} (h : IsFileName name) : isAbsolute name = false :=
  isAbsolute_of_slashless h.slashless

theorem ne_empty_of_absolute {path : String} (h : isAbsolute path = true) : path ≠ "" := by
  rintro rfl
  cases h

theorem isAbsolute_append {directory : String} (hne : directory ≠ "") (rest : String) :
    isAbsolute (directory ++ rest) = isAbsolute directory := by
  rw [isAbsolute, isAbsolute, String.toList_append]
  cases hchars : directory.toList with
  | nil => exact absurd (String.toList_eq_nil_iff.1 hchars) hne
  | cons c cs => rfl

/-- A path that is made of names of entries is relative. -/
theorem isAbsolute_ofNames {ns : List String} (h : FileNames ns) :
    isAbsolute (ofNames ns) = false := by
  cases ns with
  | nil => rfl
  | cons n ns =>
    have hn : IsFileName n := h n List.mem_cons_self
    cases ns with
    | nil => rw [ofNames, String.intercalate_singleton, hn.relative]
    | cons m ns =>
      rw [ofNames, String.intercalate_cons_cons, String.append_assoc,
        isAbsolute_append hn.ne_empty, hn.relative]

/-- What stands between a directory and a relative path below it. -/
def gap (directory : String) : String :=
  if directory = "" ∨ directory.toList.getLast? = some '/' then "" else "/"

theorem join_eq {path : String} (h : isAbsolute path = false) (directory : String) :
    join directory path = directory ++ gap directory ++ path := by
  rw [join, if_neg (by simp [h]), gap]
  split
  · rw [String.append_empty]
  · rfl

/-- Different relative paths are different below a directory. -/
theorem join_inj {directory path path' : String} (h : isAbsolute path = false)
    (h' : isAbsolute path' = false) (heq : join directory path = join directory path') :
    path = path' := by
  rw [join_eq h, join_eq h'] at heq
  exact (String.append_right_inj _).1 heq

theorem join_ne_empty_of_relative {path : String} (h : isAbsolute path = false) (hne : path ≠ "")
    (directory : String) : join directory path ≠ "" := by
  rw [join_eq h, Ne, String.append_eq_empty_iff]
  exact fun hempty => hne hempty.2

theorem join_ne_empty {directory : String} (hne : directory ≠ "") (path : String) :
    join directory path ≠ "" := by
  by_cases h : isAbsolute path = true
  · rw [join, if_pos h]
    exact ne_empty_of_absolute h
  · rw [Bool.not_eq_true] at h
    rw [join_eq h, Ne, String.append_eq_empty_iff, String.append_eq_empty_iff]
    exact fun hempty => hne hempty.1.1

/-- Below a relative path there are only relative ones, and below an absolute path only absolute
ones. -/
theorem isAbsolute_join {directory path : String} (hne : directory ≠ "")
    (h : isAbsolute path = false) : isAbsolute (join directory path) = isAbsolute directory := by
  rw [join_eq h, String.append_assoc, isAbsolute_append hne]

theorem isAbsolute_join_of_absolute {directory : String} (h : isAbsolute directory = true)
    (path : String) : isAbsolute (join directory path) = true := by
  by_cases hpath : isAbsolute path = true
  · rw [join, if_pos hpath, hpath]
  · rw [Bool.not_eq_true] at hpath
    rw [isAbsolute_join (ne_empty_of_absolute h) hpath, h]

/-- Only the end of a directory decides about the gap behind it. -/
theorem gap_append (directory : String) {rest : String} (hne : rest ≠ "") :
    gap (directory ++ rest) = gap rest := by
  have hchars : rest.toList ≠ [] := fun hnil => hne (String.toList_eq_nil_iff.1 hnil)
  have hlast : (directory ++ rest).toList.getLast? = rest.toList.getLast? := by
    rw [String.toList_append, List.getLast?_append, List.getLast?_eq_some_getLast hchars,
      Option.some_or]
  have hempty : directory ++ rest ≠ "" := fun h => hne (String.append_eq_empty_iff.1 h).2
  rw [gap, gap, hlast]
  simp only [hne, hempty, false_or]

/-- A path below a directory and one below this path: it makes no difference which are put together
first. -/
theorem join_join (directory : String) {path : String} (hne : path ≠ "") {rest : String}
    (h : isAbsolute rest = false) :
    join directory (join path rest) = join (join directory path) rest := by
  by_cases hpath : isAbsolute path = true
  · have habsolute : isAbsolute (join path rest) = true := by rw [isAbsolute_join hne h, hpath]
    have hjoin : ∀ p, isAbsolute p = true → join directory p = p := fun p hp => by
      rw [join, if_pos hp]
    rw [hjoin _ habsolute, hjoin path hpath]
  · rw [Bool.not_eq_true] at hpath
    have hrelative : isAbsolute (join path rest) = false := by rw [isAbsolute_join hne h, hpath]
    have hgap : gap (join directory path) = gap path := by
      rw [join_eq hpath, gap_append _ hne]
    rw [join_eq hrelative, join_eq h (join directory path), hgap, join_eq hpath, join_eq h path]
    simp only [String.append_assoc]

/-- The names of a path below a directory: those on the way to the directory, and its own.  The
way to the directory may have an empty name at its end more than is needed. -/
theorem names_join {directory path : String} (hne : directory ≠ "")
    (h : isAbsolute path = false) :
    ∃ front, names (join directory path) = front ++ names path ∧
      (names directory = front ∨ names directory = front ++ [""]) := by
  rw [join, if_neg (by simp [h])]
  split
  · rename_i hslash
    have hlast := hslash.resolve_left hne
    obtain ⟨front, hfront⟩ : ∃ front, directory.toList = front ++ ['/'] := by
      obtain ⟨hchars, hlast⟩ := List.getLast?_eq_some_iff.1 hlast
      exact ⟨hchars, hlast⟩
    have hdirectory : directory = String.ofList front ++ "/" ++ "" := by
      apply String.toList_inj.1
      simp [String.toList_append, hfront]
    have hempty : names "" = [""] := by decide
    refine ⟨names (String.ofList front), ?_, Or.inr ?_⟩
    · rw [hdirectory, String.append_empty, names_append_slash]
    · rw [hdirectory, names_append_slash, hempty]
  · exact ⟨names directory, names_append_slash directory path, Or.inl rfl⟩

/-! ## The end of a way -/

/-- The path at the end of a way down from a directory. -/
def below (directory : String) (way : List String) : String := way.foldl join directory

theorem below_cons (directory name : String) (way : List String) :
    below directory (name :: way) = below (join directory name) way := rfl

theorem below_concat (directory : String) (way : List String) (name : String) :
    below directory (way ++ [name]) = join (below directory way) name := by
  rw [below, List.foldl_append]
  rfl

theorem below_ne_empty {directory : String} (hne : directory ≠ "") (way : List String) :
    below directory way ≠ "" := by
  induction way generalizing directory with
  | nil => exact hne
  | cons name way ih => exact ih (join_ne_empty hne name)

theorem isAbsolute_below {directory : String} (hne : directory ≠ "") {way : List String}
    (h : FileNames way) : isAbsolute (below directory way) = isAbsolute directory := by
  induction way generalizing directory with
  | nil => rfl
  | cons name way ih =>
    obtain ⟨hname, hway⟩ := List.forall_mem_cons.1 h
    rw [below_cons, ih (join_ne_empty hne name) hway,
      isAbsolute_join hne hname.relative]

/-- A way may be walked name by name, or be taken as one path. -/
theorem below_eq_join {way : List String} (hne : way ≠ []) (h : FileNames way)
    (directory : String) : below directory way = join directory (ofNames way) := by
  induction way generalizing directory with
  | nil => exact absurd rfl hne
  | cons name way ih =>
    obtain ⟨hname, hway⟩ := List.forall_mem_cons.1 h
    cases way with
    | nil => rw [ofNames, String.intercalate_singleton]; rfl
    | cons next way =>
      have hgap : gap name = "/" := by
        rw [gap, if_neg]
        rintro (hempty | hslash)
        · exact hname.ne_empty hempty
        · exact hname.slashless (List.mem_of_getLast? hslash)
      have hcons : ofNames (name :: next :: way) = join name (ofNames (next :: way)) := by
        rw [join_eq (isAbsolute_ofNames hway), hgap, ofNames, String.intercalate_cons_cons]
        rfl
      rw [below_cons, ih (List.cons_ne_nil next way) hway, hcons,
        join_join directory hname.ne_empty (isAbsolute_ofNames hway)]

/-- Each name on a way makes the path longer. -/
theorem size_join_lt {name : String} (h : IsFileName name) (directory : String) :
    directory.utf8ByteSize < (join directory name).utf8ByteSize := by
  have hname : name.utf8ByteSize ≠ 0 := fun hzero =>
    h.ne_empty (String.utf8ByteSize_eq_zero_iff.1 hzero)
  rw [join_eq h.relative, String.utf8ByteSize_append, String.utf8ByteSize_append]
  omega

theorem size_add_length_le {way : List String} (h : FileNames way) (directory : String) :
    directory.utf8ByteSize + way.length ≤ (below directory way).utf8ByteSize := by
  induction way generalizing directory with
  | nil => exact Nat.le_refl _
  | cons name way ih =>
    obtain ⟨hname, hway⟩ := List.forall_mem_cons.1 h
    have hjoin := size_join_lt hname directory
    have hbelow := ih hway (join directory name)
    rw [below_cons, List.length_cons]
    omega

/-! ## Backslashes -/

theorem forwardSlashes_of_notMem {path : String} (h : '\\' ∉ path.toList) :
    forwardSlashes path = path := by
  have hsame : path.toList.map (fun c => if c = '\\' then '/' else c) =
      path.toList.map id := by
    apply List.map_congr_left
    intro c hc
    have hne : c ≠ '\\' := fun heq => h (heq ▸ hc)
    rw [if_neg hne, id]
  rw [forwardSlashes, hsame, List.map_id, String.ofList_toList]

/-- No backslash is left. -/
theorem notMem_forwardSlashes (path : String) : '\\' ∉ (forwardSlashes path).toList := by
  rw [forwardSlashes, String.toList_ofList, List.mem_map]
  rintro ⟨c, -, hc⟩
  split at hc
  · cases hc
  · rename_i hne
    exact hne hc

/-- No name has a backslash in it. -/
def Backslashless (names : List String) : Prop := ∀ n ∈ names, '\\' ∉ n.toList

theorem forwardSlashes_ofNames {ns : List String} (h : Backslashless ns) :
    forwardSlashes (ofNames ns) = ofNames ns := by
  apply forwardSlashes_of_notMem
  intro hmem
  rcases mem_ofNames hmem with hslash | ⟨n, hn, hbackslash⟩
  · cases hslash
  · exact h n hn hbackslash

/-- A path keeps its names when its backslashes are turned into slashes only if none of them has
a backslash. -/
theorem names_forwardSlashes_iff {ns : List String} (hne : ns ≠ []) (h : Slashless ns) :
    names (forwardSlashes (ofNames ns)) = ns ↔ Backslashless ns := by
  constructor
  · intro heq n hn hbackslash
    -- the backslash would still be in the path that is put together from the names
    apply notMem_forwardSlashes (ofNames ns)
    rw [← ofNames_names (forwardSlashes (ofNames ns)), heq]
    exact mem_ofNames_of_mem hn hbackslash
  · intro hnames
    rw [forwardSlashes_ofNames hnames, names_ofNames hne h]

/-! ## NUL -/

theorem hasNul_eq_false_iff (path : String) :
    hasNul path = false ↔ ∀ c ∈ path.toList, c.toNat ≠ 0 := by
  simp [hasNul]

theorem hasNul_append (path rest : String) :
    hasNul (path ++ rest) = (hasNul path || hasNul rest) := by
  rw [hasNul, String.toList_append, List.any_append]
  rfl

/-- A path below a directory has no NUL if neither of the two has one. -/
theorem hasNul_join {directory path : String} (hdirectory : hasNul directory = false)
    (hpath : hasNul path = false) : hasNul (join directory path) = false := by
  rw [join]
  split
  · exact hpath
  split
  · rw [hasNul_append, hdirectory, hpath]
    rfl
  · rw [hasNul_append, hasNul_append, hdirectory, hpath]
    rfl

theorem hasNul_ofNames {ns : List String} (h : ∀ n ∈ ns, hasNul n = false) :
    hasNul (ofNames ns) = false := by
  rw [hasNul_eq_false_iff]
  intro c hc
  rcases mem_ofNames hc with rfl | ⟨n, hn, hc⟩
  · decide
  · exact (hasNul_eq_false_iff n).1 (h n hn) c hc

theorem hasNul_forwardSlashes {path : String} (h : hasNul path = false) :
    hasNul (forwardSlashes path) = false := by
  rw [hasNul_eq_false_iff] at h ⊢
  intro c hc
  rw [forwardSlashes, String.toList_ofList] at hc
  obtain ⟨b, hb, rfl⟩ := List.mem_map.1 hc
  split
  · decide
  · exact h b hb

/-! ## Extensions -/

/-- The letters after the last dot are cut off with it, unless there are only dots before. -/
theorem splitExtension_append {stem : String} {letters : List Char}
    (hstem : ∃ c ∈ stem.toList, c ≠ '.') (hletters : '.' ∉ letters) :
    splitExtension (stem ++ String.ofList ('.' :: letters)) =
      (stem, String.ofList ('.' :: letters)) := by
  have hreversed : (stem ++ String.ofList ('.' :: letters)).toList.reverse =
      letters.reverse ++ '.' :: stem.toList.reverse := by
    simp [String.toList_append]
  have hall : ∀ c ∈ letters.reverse, decide (c ≠ '.') = true := by
    intro c hc
    have hne : c ≠ '.' := fun heq => hletters (heq ▸ List.mem_reverse.1 hc)
    exact decide_eq_true hne
  have htake : (letters.reverse ++ '.' :: stem.toList.reverse).takeWhile (· ≠ '.') =
      letters.reverse := by
    rw [List.takeWhile_append_of_pos hall, List.takeWhile_cons_of_neg (by simp), List.append_nil]
  have hdots : (stem.toList.reverse.all (· = '.')) = false := by
    obtain ⟨c, hc, hne⟩ := hstem
    rw [List.all_eq_false]
    exact ⟨c, List.mem_reverse.2 hc, by simp [hne]⟩
  simp only [splitExtension, hreversed, htake, List.drop_left, hdots, List.reverse_reverse,
    String.ofList_toList]
  rfl

/-- A name has no extension, or consists of a stem and an extension. -/
theorem splitExtension_cases (name : String) :
    splitExtension name = (name, "") ∨
      ∃ stem letters, name = stem ++ String.ofList ('.' :: letters) ∧
        (∃ c ∈ stem.toList, c ≠ '.') ∧ '.' ∉ letters := by
  rw [splitExtension]
  generalize hextension : name.toList.reverse.takeWhile (· ≠ '.') = extension
  have hparts : name.toList.reverse =
      extension ++ name.toList.reverse.dropWhile (· ≠ '.') := by
    rw [← hextension, List.takeWhile_append_dropWhile]
  have hdrop : name.toList.reverse.drop extension.length =
      name.toList.reverse.dropWhile (· ≠ '.') := by
    conv => lhs; rw [hparts]
    rw [List.drop_left]
  split
  · rename_i stem hstem
    split
    · exact Or.inl rfl
    · rename_i hdots
      right
      refine ⟨String.ofList stem.reverse, extension.reverse, ?_, ?_, ?_⟩
      · apply String.toList_inj.1
        rw [hdrop] at hstem
        rw [hstem] at hparts
        have hname := congrArg List.reverse hparts
        simpa [String.toList_append] using hname
      · simpa using hdots
      · rw [List.mem_reverse, ← hextension]
        intro hmem
        simpa using List.all_eq_true.1 List.all_takeWhile '.' hmem
  · exact Or.inl rfl

/-- When a name is cut before an extension: it ends in the extension, and there is something
other than dots before that. -/
theorem splitExtension_eq_iff {letters : List Char} (hletters : '.' ∉ letters)
    (name stem : String) :
    splitExtension name = (stem, String.ofList ('.' :: letters)) ↔
      name = stem ++ String.ofList ('.' :: letters) ∧ ∃ c ∈ stem.toList, c ≠ '.' := by
  constructor
  · intro h
    rcases splitExtension_cases name with hnone | ⟨stem', letters', hname, hstem', hletters'⟩
    · rw [hnone, Prod.mk.injEq] at h
      exact absurd (congrArg String.toList h.2) (by simp)
    · rw [hname, splitExtension_append hstem' hletters', Prod.mk.injEq] at h
      obtain ⟨rfl, hextension⟩ := h
      rw [hname, hextension]
      exact ⟨rfl, hstem'⟩
  · rintro ⟨rfl, hstem⟩
    exact splitExtension_append hstem hletters

end Path

end PrototypeOrder
