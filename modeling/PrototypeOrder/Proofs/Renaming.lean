/-
# Other names and other places

A matcher compares the names of functions and carries places along.  A change of names that
keeps them apart, and any change of places, can therefore be made before or after a call, with
the same result.  The names of files are compared in one place only, where a check tells one
file from two.

* `Matcher.reconcileOne_rename`, `Matcher.reconcile_rename`, `Matcher.scan_rename`,
  `Matcher.finish_rename` : calls on a matcher;
* `SourceFile.finds_refile` : what is read off a file with another name;
* `validate_refile` : a check of the same contents under other file names.
-/
import PrototypeOrder.Proofs.Soundness

namespace PrototypeOrder

/-- A change of the names of functions, of places, and of the names of files.  It keeps the
functions apart and the entry point where it is. -/
structure Renaming where
  name : String → String
  place : Location → Location
  file : String → String
  name_inj : ∀ x y, name x = name y → x = y
  name_eq_entryPoint_iff : ∀ x, name x = entryPoint ↔ x = entryPoint

/-! ## What is renamed -/

variable (r : Renaming)

def Declaration.rename (d : Declaration) : Declaration :=
  ⟨r.name d.name, r.place d.location, d.start?.map r.place⟩

def Definition.rename (d : Definition) : Definition :=
  ⟨r.name d.name, r.place d.location, d.isStatic⟩

def Item.rename : Item → Item
  | declaration d => declaration (d.rename r)
  | definition d => definition (d.rename r)

def Find.rename : Find → Find
  | item i => item (i.rename r)
  | nameless file row => nameless (r.file file) row

def Violation.rename : Violation → Violation
  | located fault locations => located fault (locations.map r.place)
  | emptyFile file => emptyFile (r.file file)

def Stop.rename : Stop → Stop
  | violation v => violation (v.rename r)
  | misuse m => misuse m

def Failure.rename : Failure → Failure
  | violation v => violation (v.rename r)
  | misuse m => misuse m
  | notBytes typeName => notBytes typeName
  | missingSource => missingSource

theorem Failure.ofStop_rename (stop : Stop) :
    Failure.ofStop (stop.rename r) = (Failure.ofStop stop).rename r := by
  cases stop <;> rfl

/-- The place to blame for a declaration is renamed with it. -/
theorem Declaration.blame_rename (d : Declaration) : (d.rename r).blame = r.place d.blame := by
  rw [blame, blame, rename]
  cases d.start? <;> rfl

/-- A renamed body is exempt when it was. -/
theorem Definition.isExempt_rename (d : Definition) : (d.rename r).isExempt = d.isExempt := by
  have hname : (r.name d.name == entryPoint) = (d.name == entryPoint) := by
    rw [Bool.eq_iff_iff, beq_iff_eq, beq_iff_eq]
    exact r.name_eq_entryPoint_iff d.name
  rw [isExempt, isExempt, rename, hname]

namespace Matcher

/-- A matcher with renamed prototypes in its queue. -/
def rename (m : Matcher) : Matcher := { m with pending := m.pending.map (Declaration.rename r) }

def Reply.rename (reply : Reply) : Reply :=
  ⟨reply.matcher.rename r, reply.stop.map (Stop.rename r), reply.rest.map (Find.rename r)⟩

def ScanReply.rename (reply : ScanReply) : ScanReply :=
  ⟨reply.toReply.rename r, reply.first.map (Definition.rename r)⟩

@[simp]
theorem phase_rename (m : Matcher) : (m.rename r).phase = m.phase := rfl

theorem rename_fresh : fresh.rename r = fresh := rfl

@[simp]
theorem pending_rename (m : Matcher) :
    (m.rename r).pending = m.pending.map (Declaration.rename r) := rfl

/-! ## Calls -/

/-- Names are the same after a renaming when they were before, so the front of the queue is
taken or refused as before. -/
theorem matchFront_rename (m : Matcher) (d : Definition) :
    (m.rename r).matchFront (d.rename r) =
      ((m.matchFront d).1.rename r, (m.matchFront d).2.map (Stop.rename r)) := by
  rw [matchFront, matchFront, pending_rename]
  cases m.pending with
  | nil => rfl
  | cons front rest =>
    rw [List.map_cons]
    by_cases hname : front.name = d.name
    · have hrenamed : (front.rename r).name = (d.rename r).name := congrArg r.name hname
      simp only [if_pos hname, if_pos hrenamed]
      rfl
    · have hrenamed : (front.rename r).name ≠ (d.rename r).name :=
        fun h => hname (r.name_inj _ _ h)
      simp only [if_neg hname, if_neg hrenamed]
      rfl

/-- One item. -/
theorem reconcileOne_rename (m : Matcher) (i : Item) :
    (m.rename r).reconcileOne (i.rename r) =
      ((m.reconcileOne i).1.rename r, (m.reconcileOne i).2.map (Stop.rename r)) := by
  rw [reconcileOne, reconcileOne, phase_rename]
  by_cases hm : m.phase = .scanning ∨ m.phase = .reconciling
  · rw [if_pos hm, if_pos hm]
    cases i with
    | declaration d =>
      simp only [Item.rename, Declaration.blame_rename]
      rfl
    | definition d =>
      simp only [Item.rename, Definition.isExempt_rename]
      cases d.isExempt with
      | true => rfl
      | false => exact matchFront_rename r { m with phase := .reconciling } d
  · rw [if_neg hm, if_neg hm]
    rfl

/-- Items one after the other: what is reported, and what is left, is renamed. -/
theorem reconcile_rename (m : Matcher) (finds : List Find) :
    ((m.rename r).reconcile (finds.map (Find.rename r))).value =
      (m.reconcile finds).value.rename r := by
  induction finds generalizing m with
  | nil => rfl
  | cons find finds ih =>
    cases find with
    | nameless file row => exact ih m
    | item i =>
      have hone := reconcileOne_rename r m i
      cases hi : m.reconcileOne i with
      | mk m' stop =>
        rw [hi] at hone
        cases stop with
        | none =>
          rw [reconcile_item_of_none hi, List.map_cons, Find.rename, reconcile_item_of_none hone]
          exact ih m'
        | some stop =>
          rw [reconcile_item_of_some hi, List.map_cons, Find.rename, reconcile_item_of_some hone]
          rfl

theorem scanFrom_rename (m : Matcher) (finds : List Find) :
    ((m.rename r).scanFrom (finds.map (Find.rename r))).value =
      (m.scanFrom finds).value.rename r := by
  induction finds generalizing m with
  | nil => rfl
  | cons find finds ih =>
    cases find with
    | nameless file row => exact ih m
    | item i =>
      cases i with
      | declaration d =>
        have hqueued : ({ m with pending := m.pending ++ [d] } : Matcher).rename r =
            { m.rename r with pending := (m.rename r).pending ++ [d.rename r] } := by
          simp [rename]
        have htail := ih { m with pending := m.pending ++ [d] }
        rw [hqueued] at htail
        exact htail
      | definition d => rfl

/-- A scan stops at the same body, and leaves the same rest. -/
theorem scan_rename (m : Matcher) (finds : List Find) :
    ((m.rename r).scan (finds.map (Find.rename r))).value = (m.scan finds).value.rename r := by
  rw [scan, scan, phase_rename]
  by_cases hm : m.phase = .scanning
  · rw [if_pos hm, if_pos hm]
    exact scanFrom_rename r m finds
  · rw [if_neg hm, if_neg hm]
    rfl

theorem finish_rename (m : Matcher) : (m.rename r).finish.value = m.finish.value.rename r := by
  obtain ⟨pending, phase, matched⟩ := m
  cases pending with
  | nil => cases phase <;> rfl
  | cons front rest => cases phase <;> rfl

/-- A reconciliation with its finish succeeds as before, or fails for the renamed reason. -/
theorem settle_rename (m : Matcher) (finds : List Find) :
    ((m.rename r).settle (finds.map (Find.rename r))).value =
      (m.settle finds).value.mapError (Failure.rename r) := by
  rw [settle, settle, reconcile_rename]
  cases hstop : (m.reconcile finds).value.stop with
  | some stop =>
    simp only [Reply.rename, hstop, Option.map_some]
    exact congrArg Except.error (Failure.ofStop_rename r stop)
  | none =>
    simp only [Reply.rename, hstop, Option.map_none, finish_rename]
    cases hfinish : (m.reconcile finds).value.matcher.finish.value.stop with
    | some stop => exact congrArg Except.error (Failure.ofStop_rename r stop)
    | none => rfl

theorem withoutBodies_rename (m : Matcher) (file : String) :
    (m.rename r).withoutBodies (r.file file) = (m.withoutBodies file).rename r := by
  rw [withoutBodies, withoutBodies, pending_rename]
  cases m.pending with
  | nil => rfl
  | cons front rest => rfl

end Matcher

/-! ## Files under other names -/

section Files

variable (names : String → String)

/-- A place in a file that has another name. -/
def Location.refile (l : Location) : Location := { l with file := names l.file }

/-- Other names for files, and all else as it is. -/
def Renaming.ofFiles : Renaming where
  name := id
  place := Location.refile names
  file := names
  name_inj := fun _ _ h => h
  name_eq_entryPoint_iff := fun _ => Iff.rfl

namespace SourceFile

/-- A file under another name. -/
def refile (f : SourceFile) : SourceFile := { f with name := names f.name }

theorem findAt_refile (f : SourceFile) (n : Node) :
    (f.refile names).findAt (f.refile names).location n =
      (f.findAt f.location n).map (Find.rename (.ofFiles names)) := by
  rw [findAt, findAt]
  by_cases hkind : n.kind = "declaration"
  · rw [if_pos hkind, if_pos hkind]
    cases n.functionName? with
    | none => rfl
    | some ident => rfl
  · rw [if_neg hkind, if_neg hkind]
    cases n.functionName? with
    | none => rfl
    | some ident => rfl

/-- The same is come across in a file with another name. -/
theorem finds_refile (f : SourceFile) :
    (f.refile names).finds = f.finds.map (Find.rename (.ofFiles names)) := by
  rw [finds_eq, finds_eq, List.map_filterMap]
  exact congrArg (List.filterMap · f.itemNodes) (funext (findAt_refile names f))

/-- A file is refused under another name when it was, for the same node. -/
theorem parseChecked_refile (parse : Bytes → Node) (name : String) (contents : Contents) :
    (parseChecked parse (names name) contents).value =
      ((parseChecked parse name contents).value.map (refile names)).mapError
        (Failure.rename (.ofFiles names)) := by
  cases contents with
  | other typeName => rfl
  | bytes b =>
    cases h : (parse b).errorNode? with
    | some n =>
      rw [parseChecked_of_error _ h, parseChecked_of_error _ h]
      rfl
    | none =>
      rw [parseChecked_of_readable _ h, parseChecked_of_readable _ h]
      rfl

theorem parseSource_refile (parse : Bytes → Node) (name : String) (source? : Option Contents) :
    (parseSource parse (names name) source?).value =
      ((parseSource parse name source?).value.map (refile names)).mapError
        (Failure.rename (.ofFiles names)) := by
  cases source? with
  | none => rfl
  | some contents => exact parseChecked_refile names parse name contents

theorem mode_refile {name sourceName : String}
    (h : names name = names sourceName ↔ name = sourceName) :
    Mode.ofNames (names name) (names sourceName) = Mode.ofNames name sourceName := by
  simp only [Mode.ofNames, h]

/-- A header that has been parsed is checked under another name as it was. -/
theorem check_refile (f : SourceFile) (parse : Bytes → Node) {sourceName : String}
    (hnames : names f.name = names sourceName ↔ f.name = sourceName)
    (source? : Option Contents) :
    ((f.refile names).check parse (names sourceName) source?).value =
      (f.check parse sourceName source?).value.mapError (Failure.rename (.ofFiles names)) := by
  have hscan := Matcher.scan_rename (.ofFiles names) Matcher.fresh f.finds
  have hmode : Mode.ofNames (f.refile names).name (names sourceName) =
      Mode.ofNames f.name sourceName := mode_refile names hnames
  rw [Matcher.rename_fresh] at hscan
  rw [check, check, finds_refile, hmode, hscan]
  generalize Matcher.fresh.scan f.finds = scanned
  cases hfirst : scanned.value.first with
  | some first =>
    simp only [Matcher.ScanReply.rename, hfirst, Option.map_some]
    exact Matcher.settle_rename _ _ (.item (.definition first) :: scanned.value.rest)
  | none =>
    simp only [Matcher.ScanReply.rename, hfirst, Option.map_none]
    cases Mode.ofNames f.name sourceName with
    | headerOnly =>
      exact congrArg Except.error (Matcher.withoutBodies_rename (.ofFiles names) _ f.name)
    | split =>
      have hsource := parseSource_refile names parse sourceName source?
      simp only [Logged.andThen]
      cases hparsed : (parseSource parse sourceName source?).value with
      | error e =>
        rw [hparsed] at hsource
        simp only [hsource]
        rfl
      | ok source =>
        rw [hparsed] at hsource
        have hrenamed : (parseSource parse (names sourceName) source?).value =
            .ok (source.refile names) := hsource
        simp only [hrenamed, finds_refile]
        exact Matcher.settle_rename _ _ source.finds

end SourceFile

/-- **File names are compared and shown, and that is all.**  A header and a source are checked
under other names as they were, if these are the same exactly when the old ones were.  What is
reported is shown in the files with the new names. -/
theorem validate_refile (parse : Bytes → Node) (headerName : String) (header : Contents)
    (sourceName? : Option String) (source? : Option Contents)
    (hnames : names headerName = names (sourceName?.getD headerName) ↔
      headerName = sourceName?.getD headerName) :
    (validate parse (names headerName) header (sourceName?.map names) source?).value =
      (validate parse headerName header sourceName? source?).value.mapError
        (Failure.rename (.ofFiles names)) := by
  have hsourceName : (sourceName?.map names).getD (names headerName) =
      names (sourceName?.getD headerName) := by
    cases sourceName? <;> rfl
  have hheader := SourceFile.parseChecked_refile names parse headerName header
  simp only [validate, Logged.value_after, Logged.andThen, hsourceName]
  cases hparsed : (SourceFile.parseChecked parse headerName header).value with
  | error e =>
    rw [hparsed] at hheader
    simp only [hheader]
    rfl
  | ok f =>
    obtain ⟨b, -, -, rfl⟩ := (SourceFile.parseChecked_value_eq_ok_iff _ _ _ _).1 hparsed
    rw [hparsed] at hheader
    have hrenamed : (SourceFile.parseChecked parse (names headerName) header).value =
        .ok (SourceFile.refile names ⟨headerName, b, parse b⟩) := hheader
    simp only [hrenamed]
    exact SourceFile.check_refile names _ parse hnames source?

end Files

end PrototypeOrder
