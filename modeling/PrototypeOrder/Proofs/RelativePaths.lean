/-
# What a path looks like from a directory

The path of a file is found out by way of the absolute paths of its directory and of the searched
one: these are brought into normal form and compared name by name.  Where one of them lies below
the other, nothing is left of this detour.  What comes out are the names on the way, whatever
the searched directory is called and wherever the current one may be.

* `Path.tidyNames_below` : a way down adds its names to a normal form;
* `Path.steps_absolute_below` : the absolute path of a directory below another one;
* `Path.relative_below` : what a directory below looks like;
* `Path.normalise_join_relative` : and the normal form of the path of a file in it.
-/
import PrototypeOrder.Proofs.PathNames

namespace PrototypeOrder.Path

/-! ## One more name -/

theorem tidyName_empty (absolute : Bool) (done : List String) :
    tidyName absolute done "" = done := if_pos (Or.inl rfl)

/-- The name of an entry comes at the end, as it is. -/
theorem tidyName_entry {name : String} (h : IsEntryName name) (absolute : Bool)
    (done : List String) : tidyName absolute done name = done ++ [name] := by
  unfold tidyName
  rw [if_neg (show ¬ (name = "" ∨ name = ".") from h.not_here), if_pos (Or.inl h.not_up)]

/-- A step takes no name from elsewhere, and no empty one. -/
theorem mem_tidyName {absolute : Bool} {done : List String} {name n : String}
    (h : n ∈ tidyName absolute done name) : n ∈ done ∨ n = name ∧ name ≠ "" := by
  unfold tidyName at h
  split at h
  · exact Or.inl h
  rename_i hhere
  split at h
  · rcases List.mem_append.1 h with hn | hn
    · exact Or.inl hn
    · exact Or.inr ⟨List.mem_singleton.1 hn, fun hempty => hhere (Or.inl hempty)⟩
  · exact Or.inl (List.dropLast_subset done h)

theorem mem_foldl_tidyName {absolute : Bool} {ns done : List String} {n : String}
    (h : n ∈ ns.foldl (tidyName absolute) done) : n ∈ done ∨ n ∈ ns ∧ n ≠ "" := by
  induction ns generalizing done with
  | nil => exact Or.inl h
  | cons m ns ih =>
    rcases ih h with hn | ⟨hn, hne⟩
    · rcases mem_tidyName hn with hn | ⟨rfl, hne⟩
      · exact Or.inl hn
      · exact Or.inr ⟨List.mem_cons_self, hne⟩
    · exact Or.inr ⟨List.mem_cons_of_mem m hn, hne⟩

/-! ## Names in normal form -/

theorem mem_tidyNames {path n : String} (h : n ∈ tidyNames path) : n ∈ names path ∧ n ≠ "" := by
  rcases mem_foldl_tidyName h with hn | hn
  · cases hn
  · exact hn

/-- The names of a path below a directory are taken one by one after those of the directory. -/
theorem tidyNames_join {directory path : String} (hne : directory ≠ "")
    (h : isAbsolute path = false) :
    tidyNames (join directory path) =
      (names path).foldl (tidyName (isAbsolute directory)) (tidyNames directory) := by
  obtain ⟨front, hnames, hfront⟩ := names_join hne h
  have hdirectory : tidyNames directory =
      front.foldl (tidyName (isAbsolute directory)) [] := by
    unfold tidyNames
    rcases hfront with hfront | hfront
    · rw [hfront]
    · rw [hfront, List.foldl_append, List.foldl_cons, tidyName_empty, List.foldl_nil]
  rw [hdirectory, ← List.foldl_append, ← hnames, tidyNames, isAbsolute_join hne h]

theorem tidyNames_join_fileName {directory name : String} (hne : directory ≠ "")
    (h : IsFileName name) : tidyNames (join directory name) = tidyNames directory ++ [name] := by
  rw [tidyNames_join hne h.relative, h.names, List.foldl_cons, tidyName_entry h.toIsEntryName,
    List.foldl_nil]

/-- A way down adds its names. -/
theorem tidyNames_below {directory : String} (hne : directory ≠ "") {way : List String}
    (h : FileNames way) : tidyNames (below directory way) = tidyNames directory ++ way := by
  induction way generalizing directory with
  | nil => rw [List.append_nil]; rfl
  | cons name way ih =>
    obtain ⟨hname, hway⟩ := List.forall_mem_cons.1 h
    rw [below_cons, ih (join_ne_empty hne name) hway, tidyNames_join_fileName hne hname,
      List.append_assoc]
    rfl

/-- A directory is known by the names on the way down to it. -/
theorem below_inj {directory : String} (hne : directory ≠ "") {way way' : List String}
    (h : FileNames way) (h' : FileNames way') :
    below directory way = below directory way' ↔ way = way' := by
  constructor
  · intro heq
    have hnames := congrArg tidyNames heq
    rw [tidyNames_below hne h, tidyNames_below hne h'] at hnames
    exact List.append_cancel_left hnames
  · rintro rfl
    rfl

/-! ## Normal forms of paths -/

theorem leadingSlashes_of_relative {path : String} (h : isAbsolute path = false) :
    leadingSlashes path = "" := by
  unfold isAbsolute at h
  unfold leadingSlashes
  cases hchars : path.toList with
  | nil => rfl
  | cons c cs =>
    have hc : c ≠ '/' := by simpa [hchars] using h
    rw [List.takeWhile_cons_of_neg (by simpa using hc)]
    rfl

theorem leadingSlashes_of_absolute {path : String} (h : isAbsolute path = true) :
    leadingSlashes path = "/" ∨ leadingSlashes path = "//" := by
  unfold isAbsolute at h
  unfold leadingSlashes
  cases hchars : path.toList with
  | nil => simp [hchars] at h
  | cons c cs =>
    have hc : c = '/' := by simpa [hchars] using h
    rw [List.takeWhile_cons_of_pos (by simpa using hc), List.length_cons]
    split
    · omega
    · exact Or.inr rfl
    · exact Or.inl rfl

/-- The normal form of a relative path that goes somewhere is made of its names. -/
theorem normalise_of_relative {path : String} (h : isAbsolute path = false)
    (hne : ofNames (tidyNames path) ≠ "") : normalise path = ofNames (tidyNames path) := by
  unfold normalise
  rw [leadingSlashes_of_relative h, String.empty_append]
  exact if_neg hne

theorem steps_slash (path : String) : steps ("/" ++ path) = steps path := by
  have hnames : names ("/" ++ path) = "" :: names path := by
    rw [← String.empty_append (s := "/"), names_append_slash]
    rfl
  unfold steps
  rw [hnames, List.filter_cons_of_neg (by simp)]

theorem steps_ofNames {ns : List String} (hne : ∀ n ∈ ns, n ≠ "") (h : Slashless ns) :
    steps (ofNames ns) = ns := by
  cases ns with
  | nil => rfl
  | cons n ns =>
    unfold steps
    rw [names_ofNames (List.cons_ne_nil n ns) h, List.filter_eq_self]
    exact fun m hm => decide_eq_true (hne m hm)

/-- The names of the normal form of an absolute path. -/
theorem steps_normalise {path : String} (h : isAbsolute path = true) :
    steps (normalise path) = tidyNames path := by
  have hnames : steps (ofNames (tidyNames path)) = tidyNames path :=
    steps_ofNames (fun n hn => (mem_tidyNames hn).2) fun n hn =>
      slashless_names path n (mem_tidyNames hn).1
  have hdouble : "//" = "/" ++ "/" := rfl
  unfold normalise
  rcases leadingSlashes_of_absolute h with hslashes | hslashes
  · rw [hslashes, if_neg (by simp [String.append_eq_empty_iff]), steps_slash, hnames]
  · rw [hslashes, if_neg (by simp [String.append_eq_empty_iff]), hdouble, String.append_assoc,
      steps_slash, steps_slash, hnames]

/-! ## A directory from above -/

section Below

variable {current root : String} {way : List String}

theorem join_below (hroot : root ≠ "") (h : FileNames way) (current : String) :
    join current (below root way) = below (join current root) way := by
  induction way generalizing root with
  | nil => rfl
  | cons name way ih =>
    obtain ⟨hname, hway⟩ := List.forall_mem_cons.1 h
    rw [below_cons, below_cons, ih (join_ne_empty hroot name) hway,
      join_join current hroot hname.relative]

/-- The names on the way to a directory below the searched one come at the end of its absolute
path. -/
theorem steps_absolute_below (hcurrent : isAbsolute current = true) (hroot : root ≠ "")
    (h : FileNames way) :
    steps (absolute current (below root way)) = steps (absolute current root) ++ way := by
  have hjoin : isAbsolute (join current root) = true := isAbsolute_join_of_absolute hcurrent root
  have hne : join current root ≠ "" := ne_empty_of_absolute hjoin
  have hbelow : isAbsolute (below (join current root) way) = true := by
    rw [isAbsolute_below hne h, hjoin]
  unfold absolute
  rw [join_below hroot h, steps_normalise hbelow, steps_normalise hjoin, tidyNames_below hne h]

theorem shared_append (xs ys : List String) : shared xs (xs ++ ys) = xs.length := by
  induction xs with
  | nil => cases ys <;> rfl
  | cons x xs ih => rw [List.cons_append, shared, if_pos rfl, ih, List.length_cons]

/-- A directory below the searched one is told by the names on the way down. -/
theorem relative_below (hcurrent : isAbsolute current = true) (hroot : root ≠ "")
    (h : FileNames way) : relative current (below root way) root = ofWay way := by
  unfold relative
  dsimp only
  rw [steps_absolute_below hcurrent hroot h, shared_append, Nat.sub_self, List.replicate_zero,
    List.nil_append, List.drop_left]

/-- The path of a way that goes down is relative, and has the names of the way. -/
theorem tidyNames_ofWay (h : FileNames way) :
    ofWay way ≠ "" ∧ isAbsolute (ofWay way) = false ∧ tidyNames (ofWay way) = way := by
  cases way with
  | nil => exact ⟨by decide, by decide, by decide⟩
  | cons name way =>
    obtain ⟨hname, hway⟩ := List.forall_mem_cons.1 h
    have hfirst : tidyNames name = [name] := by
      unfold tidyNames
      rw [hname.names, List.foldl_cons, tidyName_entry hname.toIsEntryName]
      rfl
    show below name way ≠ "" ∧ isAbsolute (below name way) = false ∧
      tidyNames (below name way) = name :: way
    refine ⟨below_ne_empty hname.ne_empty way, ?_, ?_⟩
    · rw [isAbsolute_below hname.ne_empty hway, hname.relative]
    · rw [tidyNames_below hname.ne_empty hway, hfirst]
      rfl

/-- **The path of a file is told by names.**  From the searched directory, the normal form of the
path of a file below consists of the names on the way to the file. -/
theorem normalise_join_relative (hcurrent : isAbsolute current = true) (hroot : root ≠ "")
    {name : String} (h : FileNames (way ++ [name])) :
    normalise (join (relative current (below root way) root) name) = ofNames (way ++ [name]) := by
  obtain ⟨hway, hlast⟩ := List.forall_mem_append.1 h
  have hname : IsFileName name := hlast name List.mem_cons_self
  obtain ⟨hne, hrelative, hnames⟩ := tidyNames_ofWay hway
  have htidy : tidyNames (join (ofWay way) name) = way ++ [name] := by
    rw [tidyNames_join_fileName hne hname, hnames]
  rw [relative_below hcurrent hroot hway, normalise_of_relative, htidy]
  · rw [isAbsolute_join hne hname.relative, hrelative]
  · rw [htidy]
    exact ofNames_ne_empty (by simp) h

example : normalise (join (relative "/w" "../v/./s" "../v/.") "a.h") = "s/a.h" := by decide +kernel

end Below

/-! ## No NUL comes in -/

theorem hasNul_below {directory : String} (hdirectory : hasNul directory = false)
    {way : List String} (h : ∀ n ∈ way, hasNul n = false) :
    hasNul (below directory way) = false := by
  induction way generalizing directory with
  | nil => exact hdirectory
  | cons name way ih =>
    obtain ⟨hname, hway⟩ := List.forall_mem_cons.1 h
    exact ih (hasNul_join hdirectory hname) hway

theorem hasNul_of_mem_names {path n : String} (h : hasNul path = false) (hn : n ∈ names path) :
    hasNul n = false := by
  rw [hasNul_eq_false_iff] at h ⊢
  intro c hc
  apply h c
  rw [← ofNames_names path]
  exact mem_ofNames_of_mem hn hc

theorem hasNul_normalise {path : String} (h : hasNul path = false) :
    hasNul (normalise path) = false := by
  have hslashes : hasNul (leadingSlashes path) = false := by
    cases habsolute : isAbsolute path with
    | false => rw [leadingSlashes_of_relative habsolute]; rfl
    | true =>
      rcases leadingSlashes_of_absolute habsolute with hslashes | hslashes
      · rw [hslashes]; decide
      · rw [hslashes]; decide
  have hnames : hasNul (ofNames (tidyNames path)) = false :=
    hasNul_ofNames fun n hn => hasNul_of_mem_names h (mem_tidyNames hn).1
  unfold normalise
  dsimp only
  split
  · decide
  · rw [hasNul_append, hslashes, hnames, Bool.or_false]

theorem hasNul_ofWay {way : List String} (h : ∀ n ∈ way, hasNul n = false) :
    hasNul (ofWay way) = false := by
  cases way with
  | nil => decide
  | cons name way =>
    obtain ⟨hname, hway⟩ := List.forall_mem_cons.1 h
    exact hasNul_below hname hway

theorem hasNul_relative {current path : String} (hcurrent : hasNul current = false)
    (hpath : hasNul path = false) (start : String) :
    hasNul (relative current path start) = false := by
  unfold relative
  dsimp only
  apply hasNul_ofWay
  intro n hn
  rcases List.mem_append.1 hn with hup | hdown
  · rw [List.eq_of_mem_replicate hup]
    decide
  · have hnames : n ∈ names (absolute current path) :=
      (List.mem_filter.1 (List.mem_of_mem_drop hdown)).1
    exact hasNul_of_mem_names (hasNul_normalise (hasNul_join hcurrent hpath)) hnames

end PrototypeOrder.Path
