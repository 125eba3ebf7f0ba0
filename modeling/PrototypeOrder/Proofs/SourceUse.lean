/-
# When the source is looked at

The source of a pair is looked at only when the header can be read and has no body.  In all
other cases neither the outcome of a check nor its record depends on it: it may be missing, be
no byte string, or have any tree.

* `SourceFile.check_ignores_source` : a header that is checked alone or has a body;
* `Matcher.mem_log_settle` : what a reconciliation records;
* `validate_pair_of_body` : what a pair adds to the record of a header with a body.
-/
import PrototypeOrder.C.Outline
import PrototypeOrder.Proofs.Soundness

namespace PrototypeOrder

/-! ## Checks that do not look at the source -/

namespace SourceFile

/-- A header that is checked alone, or that has a body, is checked without the source. -/
theorem check_ignores_source {f : SourceFile} {sourceName : String}
    (h : f.name = sourceName ∨ ∃ i ∈ f.items, i.isDefinition = true) (parse parse' : Bytes → Node)
    (source? source'? : Option Contents) :
    f.check parse sourceName source? = f.check parse' sourceName source'? := by
  rcases prototypes_or_body f.items with ⟨declared, hitems⟩ | ⟨declared, d, rest, hitems⟩
  · rcases h with hname | ⟨i, hi, hbody⟩
    · rw [check_alone_of_prototypes hitems parse hname,
        check_alone_of_prototypes hitems parse' hname]
    · rw [hitems] at hi
      rw [isDefinition_of_mem_prototypes hi] at hbody
      exact absurd hbody Bool.false_ne_true
  · obtain ⟨before, after, hfinds, hbefore, -⟩ := finds_split hitems
    rw [check_of_body hfinds hbefore, check_of_body hfinds hbefore]

end SourceFile

/-- A header is parsed with the tree of its bytes and no other. -/
theorem parseChecked_congr {parse parse' : Bytes → Node} {header : Contents}
    (h : ∀ b, header = .bytes b → parse b = parse' b) (name : String) :
    SourceFile.parseChecked parse name header = SourceFile.parseChecked parse' name header := by
  cases header with
  | other typeName => rfl
  | bytes b =>
    have htree : SourceFile.parse parse name (.bytes b) =
        SourceFile.parse parse' name (.bytes b) := by
      rw [SourceFile.parse, SourceFile.parse, h b rfl]
    rw [SourceFile.parseChecked, SourceFile.parseChecked, htree]

/-! ## What is recorded after the scan -/

/-- What is passed over is recorded as such. -/
theorem mem_skipped {finds : List Find} {e : Event} (h : e ∈ finds.filterMap Find.event?) :
    ∃ file row, e = .skipped file row := by
  rw [List.mem_filterMap] at h
  obtain ⟨f, -, hf⟩ := h
  cases f with
  | item i => simp [Find.event?] at hf
  | nameless file row =>
    rw [Find.event?, Option.some.injEq] at hf
    exact ⟨file, row, hf.symm⟩

namespace Matcher

/-- A reconciliation records what it passes over, up to where it stops. -/
theorem log_reconcile (m : Matcher) (finds : List Find) :
    (m.reconcile finds).log <+: finds.filterMap Find.event? := by
  induction finds generalizing m with
  | nil => exact List.prefix_rfl
  | cons f finds ih =>
    cases f with
    | nameless file row => exact List.cons_prefix_cons.2 ⟨rfl, ih m⟩
    | item i =>
      cases hi : m.reconcileOne i with
      | mk m' stop =>
        cases stop with
        | none =>
          rw [reconcile_item_of_none hi]
          exact ih m'
        | some stop =>
          rw [reconcile_item_of_some hi]
          exact List.nil_prefix

/-- A finish records nothing but the number of bodies that were matched. -/
theorem mem_log_finish {m : Matcher} {e : Event} (h : e ∈ m.finish.log) :
    ∃ n, e = .matched n := by
  rw [finish] at h
  split at h
  · simp [Logged.pure] at h
  · split at h
    · simp [Logged.pure] at h
    · exact ⟨m.matched, by simpa [Logged.pure] using h⟩

/-- A reconciliation with its finish records what is passed over and the number of bodies
that were matched. -/
theorem mem_log_settle {m : Matcher} {finds : List Find} {e : Event}
    (h : e ∈ (m.settle finds).log) :
    (∃ file row, e = .skipped file row) ∨ ∃ n, e = .matched n := by
  have hlog : e ∈ (m.reconcile finds).log ++ (m.reconcile finds).value.matcher.finish.log := by
    rw [settle] at h
    split at h
    · exact List.mem_append_left _ h
    · dsimp only at h
      split at h
      · exact h
      · exact h
  rcases List.mem_append.1 hlog with hreconcile | hfinish
  · exact Or.inl (mem_skipped ((log_reconcile m finds).mem hreconcile))
  · exact Or.inr (mem_log_finish hfinish)

end Matcher

/-! ## Whole checks -/

/-- A pair whose header has a body is checked like the header alone.  The two records differ
in the mode, and in a warning that comes right after the record of the first body; there is
one such record. -/
theorem validate_pair_of_body {parse : Bytes → Node} {headerName sourceName : String}
    {header : Bytes} (hheader : (parse header).errorNode? = none)
    (hbody : ∃ i ∈ itemsOf parse headerName header, i.isDefinition = true)
    (hnames : sourceName ≠ headerName) {sameName? : Option String}
    (hsame : sameName?.getD headerName = headerName) (source? unused? : Option Contents) :
    let alone := validate parse headerName (.bytes header) sameName? unused?
    let pair := validate parse headerName (.bytes header) (some sourceName) source?
    pair.value = alone.value ∧
      ∃ before d n after,
        alone.log = .checking headerName .headerOnly ::
          (before ++ .firstDefinition d n :: after) ∧
        pair.log = .checking headerName .split ::
          (before ++ .firstDefinition d n :: .sourceIgnored headerName sourceName :: after) ∧
        ∀ d' n', Event.firstDefinition d' n' ∉ before ++ after := by
  intro alone pair
  obtain ⟨declared, d, rest, hitems⟩ := (body_iff _).2 hbody
  obtain ⟨earlier, later, hfinds, hearlier, -⟩ := finds_split hitems
  have halone : alone = _ := validate_of_readable hheader headerName sameName? unused?
  have hpair : pair = _ := validate_of_readable hheader headerName (some sourceName) source?
  simp only [SourceFile.check_of_body hfinds hearlier, hsame, Mode.ofNames, if_true,
    List.nil_append] at halone
  simp only [SourceFile.check_of_body hfinds hearlier, Option.getD_some, Mode.ofNames,
    if_neg hnames.symm, List.cons_append, List.nil_append] at hpair
  let settled := Matcher.settle ⟨declared, .reconciling, 0⟩ (.item (.definition d) :: later)
  refine ⟨by rw [hpair, halone], .parsed headerName header.length ::
    earlier.filterMap Find.event?, d, declared.length, settled.log, ?_, ?_, ?_⟩
  · rw [halone]
    rfl
  · rw [hpair]
    rfl
  · intro d' n' hmem
    rcases List.mem_append.1 hmem with hbefore | hafter
    · rcases List.mem_cons.1 hbefore with hparsed | hskipped
      · cases hparsed
      · obtain ⟨file, row, he⟩ := mem_skipped hskipped
        cases he
    · rcases Matcher.mem_log_settle hafter with ⟨file, row, he⟩ | ⟨n, he⟩
      · cases he
      · cases he

/-- **The source is looked at only when it has to be.**  Two checks of one header are given
the same name for the source, and contents for it that have nothing to do with each other;
the trees `parse` and `parse'` need to agree on the header only.

If no source or the header itself is named as the source, if the header is no byte string or
cannot be read, or if it has a body, then both checks have the same outcome and the same
record.

A header that can be read and has a body is checked in a pair as it is alone.  The records
differ in the mode, and in a warning that comes right after the one record of the first
body. -/
theorem source_unused (parse parse' : Bytes → Node) (headerName : String) (header : Contents)
    (hparse : ∀ b, header = .bytes b → parse b = parse' b) :
    (∀ (sourceName? : Option String) (source? source'? : Option Contents),
      (sourceName? = none ∨ sourceName? = some headerName ∨
        (∃ typeName, header = .other typeName) ∨
        (∃ b, header = .bytes b ∧ (parse b).errorNode? ≠ none) ∨
        (∃ b, header = .bytes b ∧ ∃ i ∈ itemsOf parse headerName b, i.isDefinition = true)) →
      validate parse headerName header sourceName? source? =
        validate parse' headerName header sourceName? source'?) ∧
    (∀ (b : Bytes) (sourceName : String) (sameName? : Option String)
        (source? unused? : Option Contents),
      header = .bytes b → (parse b).errorNode? = none →
      (∃ i ∈ itemsOf parse headerName b, i.isDefinition = true) →
      sourceName ≠ headerName → (sameName? = none ∨ sameName? = some headerName) →
      let alone := validate parse headerName header sameName? unused?
      let pair := validate parse headerName header (some sourceName) source?
      let warning := Event.sourceIgnored headerName sourceName
      pair.value = alone.value ∧ warning.level = .warning ∧
        ∃ before d n after,
          alone.log = .checking headerName .headerOnly ::
            (before ++ .firstDefinition d n :: after) ∧
          pair.log = .checking headerName .split ::
            (before ++ .firstDefinition d n :: warning :: after) ∧
          ∀ d' n', Event.firstDefinition d' n' ∉ before ++ after) := by
  constructor
  · intro sourceName? source? source'? h
    cases hread : (SourceFile.parseChecked parse headerName header).value with
    | error e =>
      have hread' := hread
      rw [parseChecked_congr hparse headerName] at hread'
      rw [validate_of_refused hread, validate_of_refused hread', parseChecked_congr hparse]
    | ok f =>
      obtain ⟨b, rfl, hheader, -⟩ :=
        (SourceFile.parseChecked_value_eq_ok_iff parse headerName header f).1 hread
      have htree := hparse b rfl
      have hheader' : (parse' b).errorNode? = none := htree ▸ hheader
      have hignored : headerName = sourceName?.getD headerName ∨
          ∃ i ∈ itemsOf parse headerName b, i.isDefinition = true := by
        rcases h with rfl | rfl | ⟨typeName, hother⟩ | ⟨b', hb, herror⟩ | ⟨b', hb, hbody⟩
        · exact Or.inl rfl
        · exact Or.inl rfl
        · cases hother
        · cases hb
          exact absurd hheader herror
        · cases hb
          exact Or.inr hbody
      have hcheck := SourceFile.check_ignores_source
        (f := ⟨headerName, b, parse b⟩) hignored parse parse' source? source'?
      rw [validate_of_readable hheader, validate_of_readable hheader', ← htree]
      simp only [hcheck]
  · rintro b sourceName sameName? source? unused? rfl hheader hbody hnames hsame
    have hsame' : sameName?.getD headerName = headerName := by
      rcases hsame with rfl | rfl
      · rfl
      · rfl
    obtain ⟨hvalue, hlog⟩ :=
      validate_pair_of_body hheader hbody hnames hsame' source? unused?
    exact ⟨hvalue, rfl, hlog⟩

/-- A header with a prototype and a body `a` is checked in a pair as it is alone, whether the
source is missing or is no byte string. -/
theorem source_unused_with_body :
    let header : Contents := .bytes (Utf8.encode "int a();int a()\x7b\x7d")
    let check (sourceName? : Option String) (source? : Option Contents) : Verdict :=
      validate C.parse "f.h" header sourceName? source?
    check (some "f.c") none = check (some "f.c") (some (.other "str")) ∧
      (check (some "f.c") none).value = (check none none).value := by
  have facts : (C.parse (Utf8.encode "int a();int a()\x7b\x7d")).errorNode?.isNone ∧
      ∃ i ∈ itemsOf C.parse "f.h" (Utf8.encode "int a();int a()\x7b\x7d"),
        i.isDefinition = true := by decide +kernel
  rw [Option.isNone_iff_eq_none] at facts
  obtain ⟨hheader, hbody⟩ := facts
  obtain ⟨hsame, halone⟩ := source_unused C.parse C.parse "f.h"
    (.bytes (Utf8.encode "int a();int a()\x7b\x7d")) (fun _ _ => rfl)
  constructor
  · exact hsame (some "f.c") none (some (.other "str"))
      (Or.inr (Or.inr (Or.inr (Or.inr ⟨_, rfl, hbody⟩))))
  · exact (halone _ "f.c" none none none rfl hheader hbody (by decide) (Or.inl rfl)).1

end PrototypeOrder
