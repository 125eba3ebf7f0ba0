/-
# What a check accepts

A check parses the header, scans it, and goes one of three ways: a header with a body is
reconciled with itself, a file on its own without a body is refused, and otherwise the source
is parsed and reconciled with the header.  Each way has its equation here; together they
say which files are accepted.

* `SourceFile.check_of_body`, `SourceFile.check_alone_of_prototypes`,
  `SourceFile.check_pair_of_prototypes` : the three ways;
* `validate_of_readable`, `validate_of_refused` : a check of a header that can be read, and of
  one that cannot.

The result is that a check succeeds exactly when the bodies answer the prototypes.
-/
import PrototypeOrder.Proofs.Diagnosis

namespace PrototypeOrder

/-- The prototypes and bodies of a file with given bytes. -/
def itemsOf (parse : Bytes → Node) (name : String) (bytes : Bytes) : List Item :=
  (SourceFile.mk name bytes (parse bytes)).items

namespace SourceFile

/-! ## Parsing -/

theorem parseChecked_of_readable {parse : Bytes → Node} {bytes : Bytes} (name : String)
    (h : (parse bytes).errorNode? = none) :
    parseChecked parse name (.bytes bytes) =
      ⟨[.parsed name bytes.length], .ok ⟨name, bytes, parse bytes⟩⟩ := by
  simp [parseChecked, SourceFile.parse, Logged.andThen, Logged.after, Logged.pure, checked, h]

theorem parseChecked_of_error {parse : Bytes → Node} {bytes : Bytes} {n : Node} (name : String)
    (h : (parse bytes).errorNode? = some n) :
    parseChecked parse name (.bytes bytes) =
      let location := (SourceFile.mk name bytes (parse bytes)).location n
      ⟨[.parsed name bytes.length, .syntaxError name location],
        .error (.violation (.located .syntaxError [location]))⟩ := by
  simp [parseChecked, SourceFile.parse, Logged.andThen, Logged.after, Logged.pure, checked, h]

/-- A file is read when it is a byte string without a part that could not be read. -/
theorem parseChecked_value_eq_ok_iff (parse : Bytes → Node) (name : String)
    (contents : Contents) (f : SourceFile) :
    (parseChecked parse name contents).value = .ok f ↔
      ∃ bytes, contents = .bytes bytes ∧ (parse bytes).errorNode? = none ∧
        f = ⟨name, bytes, parse bytes⟩ := by
  cases contents with
  | other typeName => simp [parseChecked, SourceFile.parse, Logged.andThen, Logged.pure]
  | bytes b =>
    cases h : (parse b).errorNode? with
    | some n =>
      rw [parseChecked_of_error name h]
      simp [h]
    | none =>
      rw [parseChecked_of_readable name h]
      simp [h, eq_comm]

/-! ## The three ways of a check -/

/-- A header with a body is reconciled from there on with the prototypes before it.  Of the
source only the name can be noticed, in a warning. -/
theorem check_of_body {f : SourceFile} {before after : List Find} {declared : List Declaration}
    {d : Definition} (hfinds : f.finds = before ++ .item (.definition d) :: after)
    (hbefore : before.filterMap Find.item? = declared.map .declaration)
    (parse : Bytes → Node) (sourceName : String) (source? : Option Contents) :
    f.check parse sourceName source? =
      let settled := Matcher.settle ⟨declared, .reconciling, 0⟩ (.item (.definition d) :: after)
      let warning : List Event :=
        if f.name = sourceName then [] else [.sourceIgnored f.name sourceName]
      ⟨before.filterMap Find.event? ++ .firstDefinition d declared.length ::
        (warning ++ settled.log), settled.value⟩ := by
  rw [check, hfinds, Matcher.scan_of_body hbefore]
  by_cases hname : f.name = sourceName
  · simp [Mode.ofNames, hname]
  · simp [Mode.ofNames, hname]

/-- A file on its own without a body is refused. -/
theorem check_alone_of_prototypes {f : SourceFile} {declared : List Declaration}
    (hitems : f.items = declared.map .declaration) (parse : Bytes → Node)
    {sourceName : String} (hname : f.name = sourceName) (source? : Option Contents) :
    f.check parse sourceName source? =
      ⟨f.finds.filterMap Find.event?,
        .error (Matcher.withoutBodies ⟨declared, .scanning, 0⟩ f.name)⟩ := by
  rw [check, Matcher.scan_of_prototypes hitems]
  simp [Mode.ofNames, hname]

/-- A header without a body leaves the bodies to the source. -/
theorem check_pair_of_prototypes {f : SourceFile} {declared : List Declaration}
    (hitems : f.items = declared.map .declaration) (parse : Bytes → Node)
    {sourceName : String} (hname : f.name ≠ sourceName) (source? : Option Contents) :
    f.check parse sourceName source? =
      let settled := (parseSource parse sourceName source?).andThen fun source =>
        Matcher.settle ⟨declared, .scanning, 0⟩ source.finds
      ⟨f.finds.filterMap Find.event? ++ settled.log, settled.value⟩ := by
  rw [check, Matcher.scan_of_prototypes hitems]
  simp [Mode.ofNames, hname]

/-! ## What comes of a check -/

theorem check_value_of_body {f : SourceFile} {declared : List Declaration} {d : Definition}
    {rest : List Item} (hitems : f.items = declared.map .declaration ++ .definition d :: rest)
    (parse : Bytes → Node) (sourceName : String) (source? : Option Contents) :
    (f.check parse sourceName source?).value =
      Matcher.outcome declared (.definition d :: rest) := by
  obtain ⟨before, after, hfinds, hbefore, rfl⟩ := finds_split hitems
  rw [check_of_body hfinds hbefore]
  exact Matcher.value_settle (Or.inr rfl) rfl

theorem check_value_of_source {f : SourceFile} {declared : List Declaration}
    (hitems : f.items = declared.map .declaration) {parse : Bytes → Node}
    {sourceName : String} (hname : f.name ≠ sourceName) {bytes : Bytes}
    (hsource : (parse bytes).errorNode? = none) :
    (f.check parse sourceName (some (.bytes bytes))).value =
      Matcher.outcome declared (itemsOf parse sourceName bytes) := by
  rw [check_pair_of_prototypes hitems parse hname, parseSource,
    parseChecked_of_readable sourceName hsource]
  exact Matcher.value_settle (Or.inl rfl) rfl

/-- A header without a body is accepted with a source that can be read and answers it. -/
theorem check_pair_eq_ok_iff {f : SourceFile} {declared : List Declaration}
    (hitems : f.items = declared.map .declaration) (parse : Bytes → Node)
    {sourceName : String} (hname : f.name ≠ sourceName) (source? : Option Contents) :
    (f.check parse sourceName source?).value = .ok () ↔
      ∃ bytes, source? = some (.bytes bytes) ∧ (parse bytes).errorNode? = none ∧
        Answers declared (itemsOf parse sourceName bytes) := by
  constructor
  · intro h
    have h' := h
    rw [check_pair_of_prototypes hitems parse hname] at h'
    cases source? with
    | none => simp [parseSource, Logged.andThen, Logged.pure] at h'
    | some contents =>
      cases hsource : (parseChecked parse sourceName contents).value with
      | error e => simp [parseSource, Logged.andThen, hsource] at h'
      | ok source =>
        obtain ⟨bytes, rfl, hread, -⟩ := (parseChecked_value_eq_ok_iff _ _ _ _).1 hsource
        rw [check_value_of_source hitems hname hread, Matcher.outcome_eq_ok_iff] at h
        exact ⟨bytes, rfl, hread, h⟩
  · rintro ⟨bytes, rfl, hread, hanswers⟩
    rw [check_value_of_source hitems hname hread, Matcher.outcome_eq_ok_iff]
    exact hanswers

end SourceFile

/-! ## The whole check -/

/-- A check of a header that can be read. -/
theorem validate_of_readable {parse : Bytes → Node} {header : Bytes}
    (h : (parse header).errorNode? = none) (headerName : String) (sourceName? : Option String)
    (source? : Option Contents) :
    validate parse headerName (.bytes header) sourceName? source? =
      let sourceName := sourceName?.getD headerName
      let checked :=
        (SourceFile.mk headerName header (parse header)).check parse sourceName source?
      ⟨.checking headerName (Mode.ofNames headerName sourceName) ::
        .parsed headerName header.length :: checked.log, checked.value⟩ := by
  simp [validate, SourceFile.parseChecked_of_readable headerName h, Logged.andThen, Logged.after]

theorem validate_value_of_readable {parse : Bytes → Node} {header : Bytes}
    (h : (parse header).errorNode? = none) (headerName : String) (sourceName? : Option String)
    (source? : Option Contents) :
    (validate parse headerName (.bytes header) sourceName? source?).value =
      ((SourceFile.mk headerName header (parse header)).check parse
        (sourceName?.getD headerName) source?).value := by
  rw [validate_of_readable h]

/-- A header with a body is decided by its own items. -/
theorem validate_value_of_body {parse : Bytes → Node} {headerName : String} {header : Bytes}
    (h : (parse header).errorNode? = none) {declared : List Declaration} {d : Definition}
    {rest : List Item}
    (hitems : itemsOf parse headerName header =
      declared.map .declaration ++ .definition d :: rest)
    (sourceName? : Option String) (source? : Option Contents) :
    (validate parse headerName (.bytes header) sourceName? source?).value =
      Matcher.outcome declared (.definition d :: rest) := by
  rw [validate_value_of_readable h, SourceFile.check_value_of_body hitems]

/-- A header without a body is decided by its items and those of the source. -/
theorem validate_value_of_source {parse : Bytes → Node} {headerName sourceName : String}
    {header source : Bytes} (h : (parse header).errorNode? = none)
    (hsource : (parse source).errorNode? = none) (hnames : headerName ≠ sourceName)
    {declared : List Declaration}
    (hitems : itemsOf parse headerName header = declared.map .declaration) :
    (validate parse headerName (.bytes header) (some sourceName)
        (some (.bytes source))).value =
      Matcher.outcome declared (itemsOf parse sourceName source) := by
  rw [validate_value_of_readable h, Option.getD_some,
    SourceFile.check_value_of_source hitems hnames hsource]

/-- A file on its own without a body is refused. -/
theorem validate_value_alone {parse : Bytes → Node} {name : String} {file : Bytes}
    (h : (parse file).errorNode? = none) {declared : List Declaration}
    (hitems : itemsOf parse name file = declared.map .declaration)
    {sameName? : Option String} (hsame : sameName?.getD name = name)
    (source? : Option Contents) :
    (validate parse name (.bytes file) sameName? source?).value =
      .error (Matcher.withoutBodies ⟨declared, .scanning, 0⟩ name) := by
  rw [validate_value_of_readable h,
    SourceFile.check_alone_of_prototypes hitems parse hsame.symm]

/-- A check of a header that is refused goes no further. -/
theorem validate_of_refused {parse : Bytes → Node} {headerName : String} {header : Contents}
    {e : Failure} (h : (SourceFile.parseChecked parse headerName header).value = .error e)
    (sourceName? : Option String) (source? : Option Contents) :
    validate parse headerName header sourceName? source? =
      ⟨.checking headerName (Mode.ofNames headerName (sourceName?.getD headerName)) ::
        (SourceFile.parseChecked parse headerName header).log, .error e⟩ := by
  simp [validate, Logged.andThen, Logged.after, h]

/-- **What a check accepts.**  A check of a header succeeds exactly when the header can be
read and one of two things holds.  Either the header has a body, and what follows its
leading run of prototypes from the first body on answers that run.  Or the header has
prototypes only, a source with another name is given as bytes that can be read, and the items
of the source answer the prototypes of the header. -/
theorem validate_eq_ok_iff (parse : Bytes → Node) (headerName : String) (header : Bytes)
    (sourceName? : Option String) (source? : Option Contents) :
    (validate parse headerName (.bytes header) sourceName? source?).value = .ok () ↔
      (parse header).errorNode? = none ∧
        ((∃ declared d rest,
            itemsOf parse headerName header =
              declared.map .declaration ++ .definition d :: rest ∧
            Answers declared (.definition d :: rest)) ∨
          ∃ declared sourceName source,
            itemsOf parse headerName header = declared.map .declaration ∧
            sourceName? = some sourceName ∧ sourceName ≠ headerName ∧
            source? = some (.bytes source) ∧ (parse source).errorNode? = none ∧
            Answers declared (itemsOf parse sourceName source)) := by
  cases herror : (parse header).errorNode? with
  | some n =>
    rw [validate_of_refused (by rw [SourceFile.parseChecked_of_error headerName herror])]
    simp
  | none =>
    rcases prototypes_or_body (itemsOf parse headerName header) with
      ⟨declared, hitems⟩ | ⟨declared, d, rest, hitems⟩
    · by_cases hname : headerName = sourceName?.getD headerName
      · -- a file on its own: it is refused, and there is neither a body nor another name
        rw [validate_value_alone herror hitems hname.symm, hitems]
        simp only [true_and]
        constructor
        · intro h
          cases h
        · rintro (⟨declared', d, rest, hbody, -⟩ | ⟨-, sourceName, -, -, rfl, hne, -⟩)
          · exact absurd hbody (prototypes_ne_body declared declared' d rest)
          · exact absurd hname.symm hne
      · rw [validate_value_of_readable herror,
          SourceFile.check_pair_eq_ok_iff hitems parse hname]
        constructor
        · rintro ⟨source, hsource, hread, hanswers⟩
          cases sourceName? with
          | none => exact absurd rfl hname
          | some sourceName =>
            exact ⟨rfl, Or.inr ⟨declared, sourceName, source, hitems, rfl,
              fun h => hname h.symm, hsource, hread, hanswers⟩⟩
        · rintro ⟨-, ⟨declared', d, rest, hbody, -⟩ |
            ⟨declared', sourceName, source, hitems', rfl, -, hsource, hread, hanswers⟩⟩
          · rw [hitems] at hbody
            exact absurd hbody (prototypes_ne_body declared declared' d rest)
          · rw [hitems] at hitems'
            rw [← prototypes_inj hitems'] at hanswers
            exact ⟨source, hsource, hread, hanswers⟩
    · rw [validate_value_of_body herror hitems, Matcher.outcome_eq_ok_iff]
      constructor
      · intro hanswers
        exact ⟨rfl, Or.inl ⟨declared, d, rest, hitems, hanswers⟩⟩
      · rintro ⟨-, ⟨declared', d', rest', hbody, hanswers⟩ | ⟨declared', -, -, hitems', -⟩⟩
        · rw [hitems] at hbody
          obtain ⟨rfl, rfl, rfl⟩ := body_inj hbody
          exact hanswers
        · rw [hitems] at hitems'
          exact absurd hitems'.symm (prototypes_ne_body declared' declared d rest)

end PrototypeOrder
