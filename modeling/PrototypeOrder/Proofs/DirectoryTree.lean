/-
# Trees of directories

What lies below a directory, and what holds of all directories there.

* `Directory.induct` : what holds of a directory once it holds of those in it holds of all;
* `Directory.Below` : the directories below a directory, each with the way down to it;
* `Directory.Everywhere` : what holds of a directory and of all below it;
* `Directory.Reachable` : a directory in which each entry is known by its name.
-/
import PrototypeOrder.FileSystem.Entry
import PrototypeOrder.Proofs.PathNames

namespace PrototypeOrder

namespace Directory

/-- A property of directories holds of all of them if each has it as soon as the directories in
it have it. -/
theorem induct {motive : Directory → Prop}
    (step : ∀ d : Directory, (∀ name entries, Entry.directory name entries ∈ d → motive entries) →
      motive d) (d : Directory) : motive d :=
  step d fun _ entries hmem =>
    have hsize : sizeOf entries < sizeOf d := by
      have hlt := List.sizeOf_lt_of_mem hmem
      rw [Entry.directory.sizeOf_spec] at hlt
      omega
    induct step entries
termination_by sizeOf d

/-! ## What lies below a directory -/

/-- The directories named in `way`, each in the one before, lead from `d` down to `d'`; `passed`
are the directories on the way, `d` last. -/
inductive Below : (d : Directory) → (way : List String) → (passed : List Directory) →
    (d' : Directory) → Prop where
  | here (d : Directory) : Below d [] [] d
  | inside {d entries d' : Directory} {name : String} {way : List String}
      {passed : List Directory} (hname : .directory name entries ∈ d)
      (h : Below entries way passed d') : Below d (name :: way) (passed ++ [d]) d'

theorem Below.trans {d d' d'' : Directory} {way way' : List String}
    {passed passed' : List Directory} (h : d.Below way passed d')
    (h' : d'.Below way' passed' d'') : d.Below (way ++ way') (passed' ++ passed) d'' := by
  induction h with
  | here d =>
    rw [List.append_nil]
    exact h'
  | inside hname _ ih =>
    rw [← List.append_assoc]
    exact .inside hname (ih h')

/-- A property that a directory and all directories below it have. -/
def Everywhere (P : Directory → Prop) (d : Directory) : Prop :=
  ∀ way passed d', d.Below way passed d' → P d'

section Everywhere

variable {P Q : Directory → Prop} {d d' : Directory} {way : List String}
  {passed : List Directory}

theorem Everywhere.here (h : d.Everywhere P) : P d := h [] [] d (.here d)

theorem Everywhere.below (h : d.Everywhere P) (hbelow : d.Below way passed d') :
    d'.Everywhere P :=
  fun _ _ d'' hbelow' => h _ _ d'' (hbelow.trans hbelow')

theorem Everywhere.inside (h : d.Everywhere P) {name : String} {entries : Directory}
    (hname : .directory name entries ∈ d) : entries.Everywhere P :=
  h.below (.inside hname (.here entries))

theorem Everywhere.mono (h : d.Everywhere P) (himp : ∀ d, P d → Q d) : d.Everywhere Q :=
  fun way passed d' hbelow => himp d' (h way passed d' hbelow)

theorem everywhere_iff (P : Directory → Prop) (d : Directory) :
    d.Everywhere P ↔
      P d ∧ ∀ name entries, .directory name entries ∈ d → Directory.Everywhere P entries := by
  constructor
  · intro h
    exact ⟨h.here, fun _ _ hname => h.inside hname⟩
  · rintro ⟨hhere, hinside⟩ way passed d' hbelow
    cases hbelow with
    | here => exact hhere
    | inside hname h => exact hinside _ _ hname _ _ _ h

end Everywhere

end Directory

mutual

/-- Whether all directories in an entry pass a test. -/
def Entry.passes (test : Directory → Bool) : Entry → Bool
  | .file _ _ => true
  | .link _ _ => true
  | .directory _ entries => test entries && Entry.allPass test entries

/-- Whether all directories below some entries pass a test. -/
def Entry.allPass (test : Directory → Bool) : List Entry → Bool
  | [] => true
  | e :: rest => e.passes test && Entry.allPass test rest

end

theorem Entry.allPass_eq_all (test : Directory → Bool) (es : List Entry) :
    Entry.allPass test es = es.all (Entry.passes test) := by
  induction es with
  | nil => rw [Entry.allPass, List.all_nil]
  | cons e es ih => rw [Entry.allPass, ih, List.all_cons]

namespace Directory

theorem allPass_iff_everywhere (P : Directory → Prop) [DecidablePred P] (d : Directory) :
    P d ∧ Entry.allPass (fun d => decide (P d)) d = true ↔ d.Everywhere P := by
  induction d using Directory.induct with
  | step d ih =>
    rw [everywhere_iff, Entry.allPass_eq_all, List.all_eq_true]
    refine and_congr_right fun _ => ?_
    constructor
    · intro h name entries hname
      have hpasses := h _ hname
      rw [Entry.passes, Bool.and_eq_true, decide_eq_true_iff] at hpasses
      exact (ih name entries hname).1 hpasses
    · intro h e he
      cases e with
      | file name contents => rw [Entry.passes]
      | link name target => rw [Entry.passes]
      | directory name entries =>
        rw [Entry.passes, Bool.and_eq_true, decide_eq_true_iff]
        exact (ih name entries he).2 (h name entries he)

instance (P : Directory → Prop) [DecidablePred P] (d : Directory) : Decidable (d.Everywhere P) :=
  decidable_of_iff _ (allPass_iff_everywhere P d)

/-! ## Names in a directory -/

/-- No two entries have the same name. -/
def Distinct (d : Directory) : Prop := (d.map Entry.name).Nodup

instance (d : Directory) : Decidable d.Distinct := inferInstanceAs (Decidable (List.Nodup _))

/-- All names have a property. -/
def Named (p : String → Prop) (d : Directory) : Prop := ∀ e ∈ d, p e.name

instance (p : String → Prop) [DecidablePred p] (d : Directory) : Decidable (d.Named p) :=
  inferInstanceAs (Decidable (∀ e ∈ d, p e.name))

theorem find?_of_mem {d : Directory} (h : d.Distinct) {e : Entry} (he : e ∈ d) :
    d.find? e.name = some e := by
  induction d with
  | nil => cases he
  | cons x d ih =>
    rw [Distinct, List.map_cons, List.nodup_cons] at h
    rw [find?]
    rcases List.mem_cons.1 he with rfl | he
    · rw [List.find?_cons_of_pos (by simp)]
    · have hne : x.name ≠ e.name := fun heq => h.1 (heq ▸ List.mem_map_of_mem he)
      rw [List.find?_cons_of_neg (by simp [hne])]
      exact ih h.2 he

/-- An entry is known by its name. -/
theorem eq_of_name_eq {d : Directory} (h : d.Distinct) {e e' : Entry} (he : e ∈ d) (he' : e' ∈ d)
    (hname : e.name = e'.name) : e = e' := by
  have hfind := find?_of_mem h he
  rw [hname, find?_of_mem h he', Option.some.injEq] at hfind
  exact hfind.symm

/-- Names lead to one directory only. -/
theorem Below.unique {d d' d'' : Directory} {way : List String} {passed passed' : List Directory}
    (h : d.Below way passed d') (h' : d.Below way passed' d'') (hd : d.Everywhere Distinct) :
    d' = d'' := by
  induction h generalizing passed' with
  | here d => cases h'; rfl
  | inside hname _ ih =>
    cases h' with
    | inside hname' h' =>
      have heq := eq_of_name_eq hd.here hname hname' rfl
      rw [Entry.directory.injEq] at heq
      obtain ⟨-, rfl⟩ := heq
      exact ih h' (hd.inside hname)

/-- The names on a way down are names of entries. -/
theorem Below.named {d d' : Directory} {way : List String} {passed : List Directory}
    {p : String → Prop} (h : d.Below way passed d') (hd : d.Everywhere (Named p)) :
    ∀ n ∈ way, p n := by
  induction h with
  | here => intro n hn; cases hn
  | inside hname _ ih =>
    intro n hn
    rcases List.mem_cons.1 hn with rfl | hn
    · exact hd.here _ hname
    · exact ih (hd.inside hname) n hn

/-- The names on a way down, and one in the directory at its end, are names of entries. -/
theorem Below.named_append {d d' : Directory} {way : List String} {passed : List Directory}
    {p : String → Prop} (h : d.Below way passed d') (hd : d.Everywhere (Named p)) {e : Entry}
    (he : e ∈ d') : ∀ n ∈ way ++ [e.name], p n := by
  intro n hn
  rcases List.mem_append.1 hn with hn | hn
  · exact h.named hd n hn
  · rw [List.mem_singleton.1 hn]
    exact (hd.below h).here e he

/-- A directory in which each name stands for one entry and is looked up as a whole. -/
structure Reachable (d : Directory) : Prop where
  distinct : d.Distinct
  fileName : d.Named Path.IsFileName

instance (d : Directory) : Decidable d.Reachable :=
  decidable_of_iff (d.Distinct ∧ d.Named Path.IsFileName)
    ⟨fun ⟨hdistinct, hfileName⟩ => ⟨hdistinct, hfileName⟩,
      fun ⟨hdistinct, hfileName⟩ => ⟨hdistinct, hfileName⟩⟩

theorem Below.fileNames {d d' : Directory} {way : List String} {passed : List Directory}
    (h : d.Below way passed d') (hd : d.Everywhere Reachable) : Path.FileNames way :=
  h.named (hd.mono fun _ => Reachable.fileName)

theorem Below.fileNames_append {d d' : Directory} {way : List String} {passed : List Directory}
    (h : d.Below way passed d') (hd : d.Everywhere Reachable) {e : Entry} (he : e ∈ d') :
    Path.FileNames (way ++ [e.name]) :=
  h.named_append (hd.mono fun _ => Reachable.fileName) he

end Directory

end PrototypeOrder
