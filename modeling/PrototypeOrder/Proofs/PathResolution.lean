/-
# Where a path leads, step by step

Going along the names of a path is a sequence of steps, one for each name: a name may stand for
the directory itself, lead to the directory above or to one inside, or be a link, whose names are
then taken first, from the top if the link has an absolute path.  `Advance` says once what a step
can be, and `Arrives` is a sequence of steps that ends in a directory.

* `resolve_eq_directory_iff` : a path leads to a directory exactly when steps arrive there;
* `Arrives.resolve_append` : what comes after names that lead to a directory is looked up there;
* `FileSystem.target_join` : a path below another one is looked up where that one leads;
* `FileSystem.target_below` : the path at the end of a way down leads to the directory there.
-/
import PrototypeOrder.Proofs.DirectoryTree

namespace PrototypeOrder

/-! ## Single steps -/

/-- What becomes of a link when so many links may be followed. -/
def followLink : Nat → Directory → List Directory → List String → Except Cause Target
  | 0 => fun _ _ _ => .error .tooManyLinks
  | links + 1 => resolve links

theorem resolve_eq_descend (links : Nat) : resolve links = descend (followLink links) := by
  cases links with
  | zero => rfl
  | succ links => rfl

theorem resolve_nil (links : Nat) (d : Directory) (above : List Directory) :
    resolve links d above [] = .ok (.directory d above) := by
  rw [resolve_eq_descend, descend.eq_def]

theorem resolve_here {name : String} (h : Path.IsHere name) (links : Nat) (d : Directory)
    (above : List Directory) (rest : List String) :
    resolve links d above (name :: rest) = resolve links d above rest := by
  rw [resolve_eq_descend]
  conv => lhs; rw [descend.eq_def]
  exact if_pos h

theorem resolve_up (links : Nat) (d parent : Directory) (above : List Directory)
    (rest : List String) :
    resolve links d (parent :: above) (".." :: rest) = resolve links parent above rest := by
  rw [resolve_eq_descend]
  conv => lhs; rw [descend.eq_def]
  rfl

/-- Above the top there is the top. -/
theorem resolve_up_top (links : Nat) (d : Directory) (rest : List String) :
    resolve links d [] (".." :: rest) = resolve links d [] rest := by
  rw [resolve_eq_descend]
  conv => lhs; rw [descend.eq_def]
  rfl

/-- What an entry leads to that has been looked up in a directory. -/
def lookedUp (links : Nat) (d : Directory) (above : List Directory) (rest : List String) :
    Option Entry → Except Cause Target
  | none => .error .notFound
  | some (.directory _ inner) => resolve links inner (d :: above) rest
  | some (.file _ contents) => if rest = [] then .ok (.file contents) else .error .notDirectory
  | some (.link _ target) =>
    if target = "" then .error .notFound
    else if Path.isAbsolute target then
      followLink links (topmost d above) [] (Path.names target ++ rest)
    else followLink links d above (Path.names target ++ rest)

theorem resolve_entry {name : String} (h : Path.IsEntryName name) (links : Nat) (d : Directory)
    (above : List Directory) (rest : List String) :
    resolve links d above (name :: rest) =
      if maxNameBytes < name.utf8ByteSize then .error .nameTooLong
      else lookedUp links d above rest (d.find? name) := by
  have hhere : ¬ (name = "" ∨ name = ".") := h.not_here
  conv => lhs; rw [resolve_eq_descend, descend.eq_def]
  dsimp only
  rw [if_neg hhere, if_neg h.not_up]
  split
  · rfl
  · cases d.find? name with
    | none => rfl
    | some e =>
      cases e with
      | file n contents => rfl
      | directory n entries => rw [lookedUp, resolve_eq_descend]
      | link n target => rfl

/-- A step from the directory `d`: `name` leads to the directory `d'`, with the names `more` to be
taken before those that are still to come.  Each link takes one from the links left. -/
inductive Advance : (links : Nat) → (d : Directory) → (above : List Directory) →
    (name : String) → (links' : Nat) → (d' : Directory) → (above' : List Directory) →
    (more : List String) → Prop where
  | here {links : Nat} {d : Directory} {above : List Directory} {name : String}
      (h : Path.IsHere name) : Advance links d above name links d above []
  | up {links : Nat} {d parent : Directory} {above : List Directory} {name : String}
      (h : name = "..") : Advance links d (parent :: above) name links parent above []
  | upTop {links : Nat} {d : Directory} {name : String} (h : name = "..") :
      Advance links d [] name links d [] []
  | inside {links : Nat} {d : Directory} {above : List Directory} {name n : String}
      {entries : Directory} (h : Path.IsEntryName name)
      (hshort : ¬ maxNameBytes < name.utf8ByteSize)
      (hfind : d.find? name = some (.directory n entries)) :
      Advance links d above name links entries (d :: above) []
  | link {links : Nat} {d : Directory} {above : List Directory} {name n target : String}
      (h : Path.IsEntryName name) (hshort : ¬ maxNameBytes < name.utf8ByteSize)
      (hfind : d.find? name = some (.link n target))
      (hne : target ≠ "") (hrelative : Path.isAbsolute target = false) :
      Advance (links + 1) d above name links d above (Path.names target)
  | linkTop {links : Nat} {d : Directory} {above : List Directory} {name n target : String}
      (h : Path.IsEntryName name) (hshort : ¬ maxNameBytes < name.utf8ByteSize)
      (hfind : d.find? name = some (.link n target))
      (hne : target ≠ "") (habsolute : Path.isAbsolute target = true) :
      Advance (links + 1) d above name links (topmost d above) [] (Path.names target)

section Steps

variable {links links' : Nat} {d d' : Directory} {above above' : List Directory}
  {name : String} {names more : List String}

/-- After a step the rest of the path is looked up where the step leads. -/
theorem Advance.resolve_cons (h : Advance links d above name links' d' above' more)
    (rest : List String) :
    resolve links d above (name :: rest) = resolve links' d' above' (more ++ rest) := by
  cases h with
  | here h => exact resolve_here h links d above rest
  | up h =>
    rw [h]
    exact resolve_up links d d' above' rest
  | upTop h =>
    rw [h]
    exact resolve_up_top links d rest
  | inside h hshort hfind => rw [resolve_entry h, if_neg hshort, hfind, lookedUp, List.nil_append]
  | link h hshort hfind hne hrelative =>
    rw [resolve_entry h, if_neg hshort, hfind, lookedUp, if_neg hne, if_neg (by simp [hrelative]),
      followLink]
  | linkTop h hshort hfind hne habsolute =>
    rw [resolve_entry h, if_neg hshort, hfind, lookedUp, if_neg hne, if_pos habsolute, followLink]

/-- A step takes a link from those left, or puts no names before those still to come. -/
theorem Advance.links_cases (h : Advance links d above name links' d' above' more) :
    links = links' + 1 ∨ links = links' ∧ more = [] := by
  cases h with
  | link => exact Or.inl rfl
  | linkTop => exact Or.inl rfl
  | here => exact Or.inr ⟨rfl, rfl⟩
  | up => exact Or.inr ⟨rfl, rfl⟩
  | upTop => exact Or.inr ⟨rfl, rfl⟩
  | inside => exact Or.inr ⟨rfl, rfl⟩

/-- A path that leads to a directory begins with a step. -/
theorem exists_advance {rest : List String}
    (h : resolve links d above (name :: rest) = .ok (.directory d' above')) :
    ∃ links₁ d₁ above₁ more, Advance links d above name links₁ d₁ above₁ more := by
  by_cases hhere : Path.IsHere name
  · exact ⟨_, _, _, _, .here hhere⟩
  by_cases hup : name = ".."
  · subst hup
    cases above with
    | nil => exact ⟨_, _, _, _, .upTop rfl⟩
    | cons parent above => exact ⟨_, _, _, _, .up rfl⟩
  have hentry : Path.IsEntryName name := ⟨hhere, hup⟩
  rw [resolve_entry hentry] at h
  split at h
  · cases h
  rename_i hshort
  cases hfind : d.find? name with
  | none =>
    rw [hfind] at h
    cases h
  | some e =>
    rw [hfind] at h
    cases e with
    | file n contents =>
      rw [lookedUp] at h
      split at h
      · cases h
      · cases h
    | directory n entries => exact ⟨_, _, _, _, .inside hentry hshort hfind⟩
    | link n target =>
      rw [lookedUp] at h
      split at h
      · cases h
      rename_i hne
      cases links with
      | zero => simp [followLink] at h
      | succ links =>
        cases htarget : Path.isAbsolute target with
        | false => exact ⟨_, _, _, _, .link hentry hshort hfind hne htarget⟩
        | true => exact ⟨_, _, _, _, .linkTop hentry hshort hfind hne htarget⟩

/-! ## Sequences of steps -/

/-- Steps along `names` that end in the directory `d'`. -/
inductive Arrives : (links : Nat) → (d : Directory) → (above : List Directory) →
    (names : List String) → (links' : Nat) → (d' : Directory) → (above' : List Directory) →
    Prop where
  | done (links : Nat) (d : Directory) (above : List Directory) :
      Arrives links d above [] links d above
  | step {links links₁ links' : Nat} {d d₁ d' : Directory} {above above₁ above' : List Directory}
      {name : String} {more rest : List String}
      (h : Advance links d above name links₁ d₁ above₁ more)
      (hrest : Arrives links₁ d₁ above₁ (more ++ rest) links' d' above') :
      Arrives links d above (name :: rest) links' d' above'

/-- Steps lead to where the rest of a path is looked up. -/
theorem Arrives.resolve_append (h : Arrives links d above names links' d' above')
    (rest : List String) :
    resolve links d above (names ++ rest) = resolve links' d' above' rest := by
  induction h with
  | done => rfl
  | step hadvance _ ih =>
    rw [List.cons_append, hadvance.resolve_cons, ← List.append_assoc]
    exact ih

theorem Arrives.links_le (h : Arrives links d above names links' d' above') :
    links' ≤ links := by
  induction h with
  | done => exact Nat.le_refl _
  | step hadvance _ ih =>
    rcases hadvance.links_cases with hlinks | ⟨hlinks, -⟩ <;> omega

/-- A path that leads to a directory arrives there.  Each step either leaves fewer links or takes a
name off the path. -/
theorem arrives_of_resolve (h : resolve links d above names = .ok (.directory d' above')) :
    ∃ links', Arrives links d above names links' d' above' := by
  induction links using Nat.strongRecOn generalizing d above names with
  | ind links ihlinks =>
    induction names generalizing d above with
    | nil =>
      rw [resolve_nil] at h
      cases h
      exact ⟨links, .done links _ _⟩
    | cons name rest ihnames =>
      obtain ⟨links₁, d₁, above₁, more, hadvance⟩ := exists_advance h
      rw [hadvance.resolve_cons] at h
      rcases hadvance.links_cases with hlinks | ⟨rfl, rfl⟩
      · have hless : links₁ < links := by omega
        obtain ⟨links', hrest⟩ := ihlinks links₁ hless h
        exact ⟨links', .step hadvance hrest⟩
      · obtain ⟨links', hrest⟩ := ihnames h
        exact ⟨links', .step hadvance hrest⟩

theorem resolve_eq_directory_iff :
    resolve links d above names = .ok (.directory d' above') ↔
      ∃ links', Arrives links d above names links' d' above' := by
  constructor
  · exact arrives_of_resolve
  · rintro ⟨links', h⟩
    rw [← List.append_nil names, h.resolve_append, resolve_nil]

/-- An empty name at the end of a path makes no difference to where steps arrive. -/
theorem Arrives.of_append_empty (h : Arrives links d above (names ++ [""]) links' d' above') :
    Arrives links d above names links' d' above' := by
  generalize hnames : names ++ [""] = longer at h
  induction h generalizing names with
  | done => simp at hnames
  | step hadvance hrest ih =>
    cases names with
    | nil =>
      obtain ⟨rfl, rfl⟩ := List.cons.inj hnames
      cases hadvance with
      | here => exact hrest
      | up h => exact absurd h (by decide)
      | upTop h => exact absurd h (by decide)
      | inside hentry => exact absurd rfl hentry.ne_empty
      | link hentry => exact absurd rfl hentry.ne_empty
      | linkTop hentry => exact absurd rfl hentry.ne_empty
    | cons name names =>
      obtain ⟨rfl, rfl⟩ := List.cons.inj hnames
      exact .step hadvance (ih (List.append_assoc _ _ _))

theorem topmost_mem (d : Directory) (above : List Directory) : topmost d above ∈ d :: above := by
  unfold topmost
  cases hlast : above.getLast? with
  | none => exact List.mem_cons_self
  | some top => exact List.mem_cons_of_mem d (List.mem_of_getLast? hlast)

/-- What holds of all directories there are holds of the one that is arrived at. -/
theorem Arrives.everywhere {P : Directory → Prop}
    (h : Arrives links d above names links' d' above') (hd : d.Everywhere P)
    (habove : ∀ a ∈ above, Directory.Everywhere P a) :
    d'.Everywhere P ∧ ∀ a ∈ above', Directory.Everywhere P a := by
  induction h with
  | done => exact ⟨hd, habove⟩
  | @step _ _ _ d _ _ above _ _ _ _ _ hadvance _ ih =>
    have hall : ∀ a ∈ d :: above, Directory.Everywhere P a :=
      List.forall_mem_cons.2 ⟨hd, habove⟩
    cases hadvance with
    | here => exact ih hd habove
    | upTop => exact ih hd habove
    | link => exact ih hd habove
    | linkTop => exact ih (hall _ (topmost_mem d above)) (List.forall_mem_nil _)
    | up =>
      obtain ⟨hparent, hrest⟩ := List.forall_mem_cons.1 habove
      exact ih hparent hrest
    | inside _ _ hfind => exact ih (hd.inside (List.mem_of_find?_eq_some hfind)) hall

end Steps

/-! ## Down a tree of directories -/

namespace Directory

variable {d : Directory} {name : String}

theorem resolve_tooLong (h : Path.IsEntryName name) (hlong : maxNameBytes < name.utf8ByteSize)
    (links : Nat) (d : Directory) (above : List Directory) (rest : List String) :
    resolve links d above (name :: rest) = .error .nameTooLong := by
  rw [resolve_entry h, if_pos hlong]

/-- The name of a directory leads into it. -/
theorem Reachable.resolve_directory (hd : d.Reachable) {entries : Directory}
    (h : .directory name entries ∈ d) (hshort : name.utf8ByteSize ≤ maxNameBytes) (links : Nat)
    (above : List Directory) (rest : List String) :
    resolve links d above (name :: rest) = resolve links entries (d :: above) rest := by
  have hname : Path.IsFileName name := hd.fileName _ h
  have hfind : d.find? name = some (.directory name entries) := find?_of_mem hd.distinct h
  rw [resolve_entry hname.toIsEntryName, if_neg (Nat.not_lt.2 hshort), hfind, lookedUp]

/-- A file in a directory is what its name leads to, unless that is too long to be looked up. -/
theorem Reachable.resolve_file (hd : d.Reachable) {contents : Bytes}
    (h : .file name contents ∈ d) (links : Nat) (above : List Directory) :
    resolve links d above [name] = .ok (.file contents) ∨
      resolve links d above [name] = .error .nameTooLong := by
  have hname : Path.IsFileName name := hd.fileName _ h
  rw [resolve_entry hname.toIsEntryName]
  split
  · exact Or.inr rfl
  · have hfind : d.find? name = some (.file name contents) := find?_of_mem hd.distinct h
    rw [hfind, lookedUp, if_pos rfl]
    exact Or.inl rfl

end Directory

/-! ## Paths below a path -/

/-- The path at the end of a way down is not too long, and neither is a name on the way. -/
structure Path.Fits (root : String) (way : List String) : Prop where
  names : ∀ n ∈ way, n.utf8ByteSize ≤ maxNameBytes
  path : (Path.below root way).utf8ByteSize < pathLimit

instance (root : String) (way : List String) : Decidable (Path.Fits root way) :=
  decidable_of_iff ((∀ n ∈ way, n.utf8ByteSize ≤ maxNameBytes) ∧
    (Path.below root way).utf8ByteSize < pathLimit)
    ⟨fun ⟨hnames, hpath⟩ => ⟨hnames, hpath⟩, fun ⟨hnames, hpath⟩ => ⟨hnames, hpath⟩⟩

/-- A way fits if its first name does and the rest of it does from there. -/
theorem Path.fits_cons_iff {way : List String} (h : Path.FileNames way) (root name : String) :
    Path.Fits root (name :: way) ↔
      Path.Fits root [name] ∧ Path.Fits (Path.join root name) way := by
  have hsize := Path.size_add_length_le h (Path.join root name)
  constructor
  · rintro ⟨hnames, hpath⟩
    obtain ⟨hname, hway⟩ := List.forall_mem_cons.1 hnames
    rw [Path.below_cons] at hpath
    refine ⟨⟨by simpa using hname, ?_⟩, hway, hpath⟩
    show (Path.join root name).utf8ByteSize < pathLimit
    omega
  · rintro ⟨⟨hname, -⟩, hway, hpath⟩
    exact ⟨List.forall_mem_cons.2 ⟨hname name List.mem_cons_self, hway⟩, hpath⟩

/-- As many names as there are bytes to a path do not fit. -/
theorem Path.Fits.length_lt {root : String} {way : List String} (h : Path.Fits root way)
    (hway : Path.FileNames way) : way.length < pathLimit := by
  have hsize := Path.size_add_length_le hway root
  have hpath := h.path
  omega

namespace FileSystem

variable {fs : FileSystem} {root : String} {d : Directory} {above : List Directory}

/-- A path that leads somewhere is not empty and not too long. -/
theorem target_cases {t : Target} (h : fs.target root = .ok t) :
    root ≠ "" ∧ root.utf8ByteSize < pathLimit ∧
      resolve maxLinks fs.top [] (fs.fromTop root) = .ok t := by
  rw [target] at h
  split at h
  · cases h
  rename_i hshort
  split at h
  · cases h
  rename_i hne
  exact ⟨hne, Nat.not_le.1 hshort, h⟩

theorem everywhere_of_target {P : Directory → Prop}
    (hroot : fs.target root = .ok (.directory d above)) (hfs : fs.top.Everywhere P) :
    d.Everywhere P := by
  obtain ⟨-, -, hresolve⟩ := target_cases hroot
  obtain ⟨links, harrives⟩ := resolve_eq_directory_iff.1 hresolve
  exact (harrives.everywhere hfs (List.forall_mem_nil _)).1

/-- From the top, the names of a path below another one come after those of that one, which may
have an empty name at its end more than is needed. -/
theorem fromTop_join (fs : FileSystem) {path : String} (hne : root ≠ "")
    (h : Path.isAbsolute path = false) :
    ∃ front, fs.fromTop (Path.join root path) = front ++ Path.names path ∧
      (fs.fromTop root = front ∨ fs.fromTop root = front ++ [""]) := by
  obtain ⟨front, hnames, hfront⟩ := Path.names_join hne h
  unfold fromTop
  rw [Path.isAbsolute_join hne h]
  split
  · exact ⟨front, hnames, hfront⟩
  · refine ⟨fs.here ++ front, by rw [hnames, List.append_assoc], ?_⟩
    rcases hfront with hfront | hfront
    · exact Or.inl (by rw [hfront])
    · exact Or.inr (by rw [hfront, List.append_assoc])

/-- A relative path below one that leads to a directory is looked up in that directory, unless
the two together are too long. -/
theorem target_join (hroot : fs.target root = .ok (.directory d above)) :
    ∃ links ≤ maxLinks, ∀ path, Path.isAbsolute path = false →
      fs.target (Path.join root path) =
        if pathLimit ≤ (Path.join root path).utf8ByteSize then .error .nameTooLong
        else resolve links d above (Path.names path) := by
  obtain ⟨hne, -, hresolve⟩ := target_cases hroot
  obtain ⟨links, harrives⟩ := resolve_eq_directory_iff.1 hresolve
  refine ⟨links, harrives.links_le, ?_⟩
  intro path hpath
  obtain ⟨front, hjoin, hfront⟩ := fromTop_join fs hne hpath
  -- a slash at the end of the first path gives it an empty name, and no step is lost without it
  have harrivesFront : Arrives maxLinks fs.top [] front links d above := by
    rcases hfront with hfront | hfront
    · rwa [hfront] at harrives
    · rw [hfront] at harrives
      exact harrives.of_append_empty
  rw [target, if_neg (Path.join_ne_empty hne path), hjoin, harrivesFront.resolve_append]

/-- The path of a directory in a directory leads there, as long as it fits. -/
theorem target_directory (hroot : fs.target root = .ok (.directory d above)) (hd : d.Reachable)
    {name : String} {entries : Directory} (h : .directory name entries ∈ d) :
    fs.target (Path.join root name) =
      if Path.Fits root [name] then .ok (.directory entries (d :: above))
      else .error .nameTooLong := by
  have hname : Path.IsFileName name := hd.fileName _ h
  obtain ⟨links, -, hjoin⟩ := target_join hroot
  rw [hjoin name hname.relative, hname.names]
  by_cases hpath : pathLimit ≤ (Path.join root name).utf8ByteSize
  · rw [if_pos hpath, if_neg]
    intro hfits
    exact absurd hfits.path (Nat.not_lt.2 hpath)
  rw [if_neg hpath]
  by_cases hshort : name.utf8ByteSize ≤ maxNameBytes
  · rw [hd.resolve_directory h hshort, resolve_nil, if_pos]
    exact ⟨by simpa using hshort, Nat.not_le.1 hpath⟩
  · rw [Directory.resolve_tooLong hname.toIsEntryName (Nat.not_le.1 hshort), if_neg]
    intro hfits
    exact hshort (hfits.names name List.mem_cons_self)

/-- The path at the end of a way down leads to the directory there. -/
theorem target_below (hroot : fs.target root = .ok (.directory d above))
    (hd : d.Everywhere Directory.Reachable) {way : List String} {passed : List Directory}
    {d' : Directory} (hbelow : d.Below way passed d') (hfits : Path.Fits root way) :
    fs.target (Path.below root way) = .ok (.directory d' (passed ++ above)) := by
  induction hbelow generalizing root above with
  | here d => exact hroot
  | @inside d entries d' name way passed hname hbelow ih =>
    have hway : Path.FileNames way := hbelow.fileNames (hd.inside hname)
    obtain ⟨hfirst, hrest⟩ := (Path.fits_cons_iff hway root name).1 hfits
    have hinside := target_directory hroot hd.here hname
    rw [if_pos hfirst] at hinside
    rw [Path.below_cons, List.append_assoc]
    exact ih hinside (hd.inside hname) hrest

end FileSystem

end PrototypeOrder
