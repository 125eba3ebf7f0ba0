/-
# Exempt bodies

Static functions and the entry point need no prototype.  A matcher that reconciles takes such a body
and stays as it was: the body uses up no prototype, does not ask whether one is left, and leaves
none behind.  So what comes of bodies is decided by the items that are left when the exempt ones are
taken out.

* `Item.isExempt`, `withoutExempt` : the exempt bodies, and items without them;
* `Matcher.reconcileOne_exempt` : one exempt body;
* `Matcher.reconcile_withoutExempt`, `Matcher.outcome_withoutExempt` : all of them;
* `Verdict.EndsIn` : how a check ends, with the number of functions on record.

The first body of a header is no such body even if it is exempt: it ends the run of prototypes.
-/
import PrototypeOrder.Proofs.Recording
import PrototypeOrder.Proofs.SourceUse

namespace PrototypeOrder

/-! ## Items without the exempt ones -/

/-- Whether an item is a body that is not compared with a prototype. -/
def Item.isExempt : Item → Bool
  | declaration _ => false
  | definition d => d.isExempt

/-- The items that are left when the exempt bodies are taken out. -/
def withoutExempt (items : List Item) : List Item := items.filter fun i => !i.isExempt

theorem withoutExempt_cons_of_exempt {i : Item} (h : i.isExempt = true) (items : List Item) :
    withoutExempt (i :: items) = withoutExempt items := by
  unfold withoutExempt
  rw [List.filter_cons_of_neg (by simp [h])]

theorem withoutExempt_cons_of_not {i : Item} (h : i.isExempt = false) (items : List Item) :
    withoutExempt (i :: items) = i :: withoutExempt items := by
  unfold withoutExempt
  rw [List.filter_cons_of_pos (by simp [h])]

theorem withoutExempt_cons_congr (i : Item) {items items' : List Item}
    (h : withoutExempt items = withoutExempt items') :
    withoutExempt (i :: items) = withoutExempt (i :: items') := by
  cases hi : i.isExempt with
  | true => rw [withoutExempt_cons_of_exempt hi, withoutExempt_cons_of_exempt hi, h]
  | false => rw [withoutExempt_cons_of_not hi, withoutExempt_cons_of_not hi, h]

/-- The second items are the first with exempt bodies put in, any number of them anywhere. -/
inductive Inserted : List Item → List Item → Prop where
  | nil : Inserted [] []
  | keep {items items' : List Item} (i : Item) (h : Inserted items items') :
    Inserted (i :: items) (i :: items')
  | insert {items items' : List Item} {i : Item} (hi : i.isExempt = true)
    (h : Inserted items items') : Inserted items (i :: items')

/-- What is put in is taken out again. -/
theorem Inserted.withoutExempt_eq {items items' : List Item} (h : Inserted items items') :
    withoutExempt items = withoutExempt items' := by
  induction h with
  | nil => rfl
  | keep i _ ih => exact withoutExempt_cons_congr i ih
  | insert hi _ ih => rw [withoutExempt_cons_of_exempt hi, ih]

namespace Matcher

/-! ## Reconciling exempt bodies -/

/-- An exempt body is taken, and the matcher stays as it was. -/
theorem reconcileOne_exempt {m : Matcher} (hm : m.phase = .reconciling) {i : Item}
    (hi : i.isExempt = true) : m.reconcileOne i = (m, none) := by
  obtain ⟨pending, phase, matched⟩ := m
  obtain rfl : phase = .reconciling := hm
  cases i with
  | declaration d => cases hi
  | definition d =>
    have hd : d.isExempt = true := hi
    simp [reconcileOne, hd]

/-- A matcher goes on reconciling when it has taken an item. -/
theorem phase_of_reconcileOne {m m' : Matcher} {i : Item} (hm : m.TakesItems)
    (h : m.reconcileOne i = (m', none)) : m'.phase = .reconciling := by
  by_cases hi : Offends m.pending [] i
  · rw [reconcileOne_of_offends hm hi] at h
    cases h
  · rw [reconcileOne_of_not_offends hm hi] at h
    cases h
    rfl

/-- A reconciliation leaves the same matcher and stops for the same reason with the exempt bodies
and without them. -/
theorem reconcile_withoutExempt {m : Matcher} (hm : m.phase = .reconciling) (items : List Item) :
    (m.reconcile ((withoutExempt items).map .item)).value.matcher =
        (m.reconcile (items.map .item)).value.matcher ∧
      (m.reconcile ((withoutExempt items).map .item)).value.stop =
        (m.reconcile (items.map .item)).value.stop := by
  induction items generalizing m with
  | nil => exact ⟨rfl, rfl⟩
  | cons i items ih =>
    rw [List.map_cons]
    cases hi : i.isExempt with
    | true =>
      rw [withoutExempt_cons_of_exempt hi, reconcile_item_of_none (reconcileOne_exempt hm hi)]
      exact ih hm
    | false =>
      rw [withoutExempt_cons_of_not hi, List.map_cons]
      cases hone : m.reconcileOne i with
      | mk m' stop =>
        cases stop with
        | none =>
          rw [reconcile_item_of_none hone, reconcile_item_of_none hone]
          exact ih (phase_of_reconcileOne (Or.inr hm) hone)
        | some stop =>
          rw [reconcile_item_of_some hone, reconcile_item_of_some hone]
          exact ⟨rfl, rfl⟩

/-- **Exempt bodies decide nothing.** -/
theorem outcome_withoutExempt (declared : List Declaration) (items : List Item) :
    outcome declared (withoutExempt items) = outcome declared items := by
  obtain ⟨hmatcher, hstop⟩ := reconcile_withoutExempt (m := ⟨declared, .reconciling, 0⟩) rfl items
  unfold outcome settle
  dsimp only
  rw [hmatcher, hstop]
  split
  · rfl
  · split
    · rfl
    · rfl

end Matcher

/-! ## The number of functions on record -/

/-- The number of functions that a record says were matched, if it is such a record. -/
def Event.functions? : Event → Option Nat
  | .matched functions => some functions
  | _ => none

/-- The numbers of functions that some records say were matched. -/
def matchedCounts (log : List Event) : List Nat := log.filterMap Event.functions?

theorem matchedCounts_append (log log' : List Event) :
    matchedCounts (log ++ log') = matchedCounts log ++ matchedCounts log' := by
  unfold matchedCounts
  rw [List.filterMap_append]

theorem matchedCounts_cons {e : Event} (h : e.functions? = none) (log : List Event) :
    matchedCounts (e :: log) = matchedCounts log :=
  List.filterMap_cons_none h

/-- What is passed over is not counted. -/
theorem matchedCounts_of_skipped {log : List Event}
    (h : ∀ e ∈ log, ∃ file row, e = .skipped file row) : matchedCounts log = [] := by
  unfold matchedCounts
  rw [List.filterMap_eq_nil_iff]
  intro e he
  obtain ⟨file, row, rfl⟩ := h e he
  rfl

theorem matchedCounts_skips (finds : List Find) :
    matchedCounts (finds.filterMap Find.event?) = [] :=
  matchedCounts_of_skipped fun _ he => mem_skipped he

/-- A reconciliation from the beginning counts the prototypes at its end, if it succeeds. -/
theorem Matcher.matchedCounts_settle {m : Matcher} (hm : m.TakesItems) (hmatched : m.matched = 0)
    (finds : List Find) :
    matchedCounts (m.settle finds).log =
      matchedCounts (closing (m.settle finds).value m.pending.length) := by
  rcases clean_or_firstOffence m.pending (finds.filterMap Find.item?) with
    hclean | ⟨before, x, after, hfirst⟩
  · rw [log_settle_of_clean hm hmatched rfl hclean, matchedCounts_append, matchedCounts_skips,
      List.nil_append]
  · have hstop := (reconcile_of_firstOffence hm rfl hfirst).2
    have hlog : (m.settle finds).log = (m.reconcile finds).log := by
      simp only [settle, hstop]
    rw [settle_of_firstOffence hm rfl hfirst, hlog]
    exact matchedCounts_of_skipped fun e he => mem_skipped ((log_reconcile m finds).mem he)

/-! ## How a check ends -/

/-- A check ends in success with a number of functions on record, or with a violation. -/
def Verdict.EndsIn (v : Verdict) : Except Violation Nat → Prop
  | .ok functions => v.value = .ok () ∧ matchedCounts v.log = [functions]
  | .error violation => v.value = .error (.violation violation) ∧ matchedCounts v.log = []

/-- The value of a check is what comes of some items that are reconciled with prototypes, and the
prototypes are counted if the check succeeds. -/
structure Verdict.Settles (v : Verdict) (declared : List Declaration) (items : List Item) :
    Prop where
  value : v.value = Matcher.outcome declared items
  counts : matchedCounts v.log = matchedCounts (closing v.value declared.length)

/-- Exempt bodies do not matter. -/
theorem Verdict.Settles.congr {v : Verdict} {declared : List Declaration} {items items' : List Item}
    (h : v.Settles declared items) (hleft : withoutExempt items = withoutExempt items') :
    v.Settles declared items' := by
  refine ⟨?_, h.counts⟩
  rw [h.value, ← Matcher.outcome_withoutExempt, hleft, Matcher.outcome_withoutExempt]

/-- Checks that settle the same prototypes and items end in the same way. -/
theorem exists_endsIn (declared : List Declaration) (items : List Item) :
    ∃ r, ∀ v : Verdict, v.Settles declared items → v.EndsIn r := by
  rcases Matcher.outcome_faulted declared items with hok | ⟨violation, hviolation, -⟩
  · refine ⟨.ok declared.length, ?_⟩
    intro v hv
    have hcounts := hv.counts
    rw [hv.value, hok] at hcounts
    exact ⟨hv.value.trans hok, hcounts⟩
  · refine ⟨.error violation, ?_⟩
    intro v hv
    have hcounts := hv.counts
    rw [hv.value, hviolation] at hcounts
    exact ⟨hv.value.trans hviolation, hcounts⟩

/-- A check of a header that can be read settles what the check of the file settles. -/
theorem validate_settles {parse : Bytes → Node} {headerName : String} {header : Bytes}
    (h : (parse header).errorNode? = none) {sourceName? : Option String}
    {source? : Option Contents} {declared : List Declaration} {items : List Item}
    (hcheck : ((SourceFile.mk headerName header (parse header)).check parse
      (sourceName?.getD headerName) source?).Settles declared items) :
    (validate parse headerName (.bytes header) sourceName? source?).Settles declared items := by
  rw [validate_of_readable h]
  exact ⟨hcheck.value, hcheck.counts⟩

namespace SourceFile

/-- A check of a header with a body settles its items from there on. -/
theorem check_settles_of_body {f : SourceFile} {declared : List Declaration} {d : Definition}
    {rest : List Item} (hitems : f.items = declared.map .declaration ++ .definition d :: rest)
    (parse : Bytes → Node) (sourceName : String) (source? : Option Contents) :
    (f.check parse sourceName source?).Settles declared (.definition d :: rest) := by
  refine ⟨check_value_of_body hitems parse sourceName source?, ?_⟩
  obtain ⟨before, after, hfinds, hbefore, -⟩ := finds_split hitems
  have hsettle := Matcher.matchedCounts_settle (m := ⟨declared, .reconciling, 0⟩) (Or.inr rfl) rfl
    (.item (.definition d) :: after)
  have hwarning : matchedCounts
      (if f.name = sourceName then [] else [.sourceIgnored f.name sourceName]) = [] := by
    split
    · rfl
    · rfl
  rw [check_of_body hfinds hbefore]
  dsimp only
  rw [matchedCounts_append, matchedCounts_skips, List.nil_append, matchedCounts_cons rfl,
    matchedCounts_append, hwarning, List.nil_append, hsettle]

/-- A check of a header without a body settles the items of the source. -/
theorem check_settles_of_source {f : SourceFile} {declared : List Declaration}
    (hitems : f.items = declared.map .declaration) {parse : Bytes → Node} {sourceName : String}
    (hname : f.name ≠ sourceName) {source : Bytes} (hsource : (parse source).errorNode? = none) :
    (f.check parse sourceName (some (.bytes source))).Settles declared
      (itemsOf parse sourceName source) := by
  refine ⟨check_value_of_source hitems hname hsource, ?_⟩
  have hsettle := Matcher.matchedCounts_settle (m := ⟨declared, .scanning, 0⟩) (Or.inl rfl) rfl
    (SourceFile.mk sourceName source (parse source)).finds
  rw [check_pair_of_prototypes hitems parse hname, parseSource,
    parseChecked_of_readable sourceName hsource]
  dsimp only [Logged.andThen]
  rw [matchedCounts_append, matchedCounts_skips, List.nil_append, List.cons_append,
    matchedCounts_cons rfl, List.nil_append, hsettle]

end SourceFile

/-- A file on its own without a body ends in a violation that its name and its prototypes decide. -/
theorem exists_endsIn_alone (parse : Bytes → Node) (name : String) (declared : List Declaration) :
    ∃ r, ∀ (file : Bytes) (sameName? : Option String) (source? : Option Contents),
      (parse file).errorNode? = none → itemsOf parse name file = declared.map .declaration →
      sameName?.getD name = name →
      (validate parse name (.bytes file) sameName? source?).EndsIn (.error r) := by
  obtain ⟨r, hr⟩ : ∃ r, Matcher.withoutBodies ⟨declared, .scanning, 0⟩ name = .violation r := by
    cases declared with
    | nil => exact ⟨.emptyFile name, rfl⟩
    | cons p rest => exact ⟨.located .undefinedDeclaration [p.location], rfl⟩
  refine ⟨r, ?_⟩
  intro file sameName? source? hfile hitems hsame
  rw [validate_of_readable hfile]
  dsimp only
  rw [SourceFile.check_alone_of_prototypes hitems parse hsame.symm source?, hr]
  exact ⟨rfl, matchedCounts_skips _⟩

/-- **Exempt bodies are not noticed.**  All files can be read.

* Two sources that are left with the same items, at the same places, when their exempt bodies are
  taken out are checked alike against a header without bodies: both checks succeed with the same
  number of functions on record, or both report the same violation at the same places.
* So are two files with the same items up to and including the first body that are left with the
  same items after it, each on its own or as the header of a pair.
* So are two files of the same name on their own that have the same items and no body.
* Putting in exempt bodies, any number of them anywhere, makes no difference to what is left. -/
theorem exempt_not_noticed (parse : Bytes → Node) :
    (∀ (headerName sourceName sourceName' : String) (header source source' : Bytes),
      (parse header).errorNode? = none → (parse source).errorNode? = none →
      (parse source').errorNode? = none → sourceName ≠ headerName → sourceName' ≠ headerName →
      (∀ i ∈ itemsOf parse headerName header, i.isDefinition = false) →
      withoutExempt (itemsOf parse sourceName source) =
        withoutExempt (itemsOf parse sourceName' source') →
      ∃ r,
        (validate parse headerName (.bytes header) (some sourceName)
          (some (.bytes source))).EndsIn r ∧
        (validate parse headerName (.bytes header) (some sourceName')
          (some (.bytes source'))).EndsIn r) ∧
    (∀ (name name' : String) (file file' : Bytes) (sourceName? sourceName?' : Option String)
      (source? source?' : Option Contents) (declared : List Declaration) (d : Definition)
      (late late' : List Item),
      (parse file).errorNode? = none → (parse file').errorNode? = none →
      itemsOf parse name file = declared.map .declaration ++ .definition d :: late →
      itemsOf parse name' file' = declared.map .declaration ++ .definition d :: late' →
      withoutExempt late = withoutExempt late' →
      ∃ r, (validate parse name (.bytes file) sourceName? source?).EndsIn r ∧
        (validate parse name' (.bytes file') sourceName?' source?').EndsIn r) ∧
    (∀ (name : String) (file file' : Bytes) (sameName? sameName?' : Option String)
      (source? source?' : Option Contents),
      (parse file).errorNode? = none → (parse file').errorNode? = none →
      sameName?.getD name = name → sameName?'.getD name = name →
      (∀ i ∈ itemsOf parse name file, i.isDefinition = false) →
      itemsOf parse name file = itemsOf parse name file' →
      ∃ r, (validate parse name (.bytes file) sameName? source?).EndsIn r ∧
        (validate parse name (.bytes file') sameName?' source?').EndsIn r) ∧
    ∀ items items' : List Item, Inserted items items' →
      withoutExempt items = withoutExempt items' := by
  refine ⟨?_, ?_, ?_, fun _ _ h => h.withoutExempt_eq⟩
  · intro headerName sourceName sourceName' header source source' hheader hsource hsource' hname
      hname' hprototypes hleft
    obtain ⟨declared, hitems⟩ := (prototypes_iff _).2 hprototypes
    obtain ⟨r, hends⟩ := exists_endsIn declared (itemsOf parse sourceName source)
    refine ⟨r, hends _ ?_, hends _ ?_⟩
    · exact validate_settles hheader (SourceFile.check_settles_of_source hitems hname.symm hsource)
    · apply Verdict.Settles.congr _ hleft.symm
      exact validate_settles hheader
        (SourceFile.check_settles_of_source hitems hname'.symm hsource')
  · intro name name' file file' sourceName? sourceName?' source? source?' declared d late late'
      hfile hfile' hitems hitems' hleft
    obtain ⟨r, hends⟩ := exists_endsIn declared (.definition d :: late)
    refine ⟨r, hends _ ?_, hends _ ?_⟩
    · exact validate_settles hfile (SourceFile.check_settles_of_body hitems _ _ _)
    · apply Verdict.Settles.congr _ (withoutExempt_cons_congr (.definition d) hleft.symm)
      exact validate_settles hfile' (SourceFile.check_settles_of_body hitems' _ _ _)
  · intro name file file' sameName? sameName?' source? source?' hfile hfile' hsame hsame'
      hprototypes hleft
    obtain ⟨declared, hitems⟩ := (prototypes_iff _).2 hprototypes
    obtain ⟨r, hends⟩ := exists_endsIn_alone parse name declared
    exact ⟨.error r, hends file sameName? source? hfile hitems hsame,
      hends file' sameName?' source?' hfile' (hleft ▸ hitems) hsame'⟩

/-- A static function `c` before the body `a` of a source, in a row that is empty without it, is not
noticed: one function is matched.  Neither is it after the entry point of a file on its own, in
which the prototype `a` has no body. -/
theorem exempt_not_noticed_static :
    let pair (row : String) : Verdict :=
      validate C.parse "f.h" (.bytes (Utf8.encode "int a();")) (some "f.c")
        (some (.bytes (Utf8.encode (row ++ "\nint a()\x7b\x7d"))))
    let alone (row : String) : Verdict :=
      validate C.parse "f.h" (.bytes (Utf8.encode ("int a();\nint main()\x7b\x7d\n" ++ row)))
        none none
    let c := "static int c()\x7b\x7d"
    matchedCounts (pair "").log = [1] ∧ (∃ r, (pair "").EndsIn r ∧ (pair c).EndsIn r) ∧
      ∃ r, (alone "").EndsIn r ∧ (alone c).EndsIn r := by
  intro pair alone c
  let header := Utf8.encode "int a();"
  let source (row : String) : Bytes := Utf8.encode (row ++ "\nint a()\x7b\x7d")
  let sole (row : String) : Bytes := Utf8.encode ("int a();\nint main()\x7b\x7d\n" ++ row)
  let place (row column : Int) (text : String) : Location := ⟨row, column, "f.h", text⟩
  let a : Declaration := ⟨"a", place 0 4 "int a();", some (place 0 0 "int a();")⟩
  let main : Definition := ⟨"main", place 1 4 "int main()\x7b\x7d", false⟩
  let late : Item := .definition ⟨"c", place 2 11 c, true⟩
  -- all that has to be computed, at once
  have facts :
      (∀ bytes ∈ [header, source "", source c, sole "", sole c],
        (C.parse bytes).errorNode?.isNone) ∧
      matchedCounts (pair "").log = [1] ∧
      (∀ i ∈ itemsOf C.parse "f.h" header, i.isDefinition = false) ∧
      withoutExempt (itemsOf C.parse "f.c" (source "")) =
        withoutExempt (itemsOf C.parse "f.c" (source c)) ∧
      itemsOf C.parse "f.h" (sole "") = [.declaration a, .definition main] ∧
      itemsOf C.parse "f.h" (sole c) = [.declaration a, .definition main, late] := by
    decide +kernel
  obtain ⟨hread, hcount, hprototypes, hleft, hitems, hitems'⟩ := facts
  simp only [List.forall_mem_cons, Option.isNone_iff_eq_none] at hread
  obtain ⟨hheader, hsource, hsource', hsole, hsole', -⟩ := hread
  refine ⟨hcount, ?_, ?_⟩
  · exact (exempt_not_noticed C.parse).1 "f.h" "f.c" "f.c" header _ _ hheader hsource hsource'
      (by decide) (by decide) hprototypes hleft
  · exact (exempt_not_noticed C.parse).2.1 "f.h" "f.h" _ _ none none none none [a] main [] [late]
      hsole hsole' hitems hitems' rfl

end PrototypeOrder
