/-
# The gate before a check

A file is refused when a node of its tree is in error.  Such a node is sought only if the root
raises its error flag, so the search misses nothing as long as every node passes the flag on to its
parent.  A missing node raises the flag too, and the search goes past it.

* `Node.WellFlagged` : flags that are raised where they should be;
* `Node.WellFlagged.errorNode?_eq` : with such flags the search is a search of the whole tree;
* `Node.FirstError` : the node in error that comes first;
* `validate_of_headerError`, `validate_of_sourceError` : checks that end at the gate.
-/
import PrototypeOrder.C.Outline
import PrototypeOrder.Proofs.Grounding
import PrototypeOrder.Proofs.ItemNodes

namespace PrototypeOrder

namespace Node

/-! ## Error flags -/

/-- The node raises its error flag exactly when it is in error, is missing, or has a child that
raises its flag. -/
def Flagged (n : Node) : Prop :=
  n.tag.hasError = true ↔
    n.tag.isError = true ∨ n.tag.isMissing = true ∨ ∃ c ∈ n.children, c.tag.hasError = true

instance (n : Node) : Decidable n.Flagged := inferInstanceAs (Decidable (_ ↔ _))

/-- All nodes of the tree raise their error flags where they should. -/
def WellFlagged (t : Node) : Prop := ∀ n ∈ t.preorder, n.Flagged

instance (t : Node) : Decidable t.WellFlagged :=
  inferInstanceAs (Decidable (∀ n ∈ t.preorder, n.Flagged))

variable {t n e : Node} {tag : Tag} {cs : List Node}

theorem WellFlagged.root (h : t.WellFlagged) : t.Flagged := h t (mem_preorder_self t)

theorem WellFlagged.child (h : (mk tag cs).WellFlagged) {c : Node} (hc : c ∈ cs) :
    c.WellFlagged := by
  intro m hm
  apply h m
  exact mem_preorder_mk.2 (Or.inr ⟨c, hc, hm⟩)

/-- A node in error raises the flags of all nodes that it is below. -/
theorem WellFlagged.hasError_of_mem (h : t.WellFlagged) (hn : n ∈ t.preorder)
    (hin : n.tag.isError = true) : t.tag.hasError = true := by
  induction t using Node.induct with
  | h tag cs ih =>
    apply h.root.2
    rcases mem_preorder_mk.1 hn with hroot | ⟨c, hc, hnc⟩
    · rw [hroot] at hin
      exact Or.inl hin
    · have hflag : c.tag.hasError = true := ih c hc (h.child hc) hnc
      exact Or.inr (Or.inr ⟨c, hc, hflag⟩)

/-! ## The search for a node in error -/

/-- The flag of the root hides no node in error. -/
theorem WellFlagged.errorNode?_eq (h : t.WellFlagged) :
    t.errorNode? = t.preorder.find? (·.tag.isError) := by
  unfold errorNode?
  rw [walk_eq_preorder]
  by_cases hflag : t.tag.hasError = true
  · rw [if_pos hflag]
  · rw [if_neg hflag, eq_comm, List.find?_eq_none]
    intro n hn hin
    exact hflag (h.hasError_of_mem hn hin)

/-- The node `e` is in error, and no node before it in pre-order is. -/
structure FirstError (t e : Node) : Prop where
  isError : e.tag.isError = true
  first : ∃ before after, t.preorder = before ++ e :: after ∧
    ∀ n ∈ before, n.tag.isError = false

theorem WellFlagged.errorNode?_eq_some_iff (h : t.WellFlagged) :
    t.errorNode? = some e ↔ t.FirstError e := by
  rw [h.errorNode?_eq, List.find?_eq_some_iff_append]
  simp only [Bool.not_eq_true']
  constructor
  · rintro ⟨hin, hfirst⟩
    exact ⟨hin, hfirst⟩
  · intro hfirst
    exact ⟨hfirst.isError, hfirst.first⟩

theorem WellFlagged.errorNode?_eq_none_iff (h : t.WellFlagged) :
    t.errorNode? = none ↔ ∀ n ∈ t.preorder, n.tag.isError = false := by
  rw [h.errorNode?_eq, List.find?_eq_none]
  simp only [Bool.not_eq_true]

/-- A tree with a node in error has a first one. -/
theorem WellFlagged.exists_firstError (h : t.WellFlagged)
    (hin : ∃ n ∈ t.preorder, n.tag.isError = true) : ∃ e, t.FirstError e := by
  obtain ⟨n, hn, hin⟩ := hin
  cases hfound : t.errorNode? with
  | some e => exact ⟨e, h.errorNode?_eq_some_iff.1 hfound⟩
  | none =>
    have hnot := h.errorNode?_eq_none_iff.1 hfound n hn
    rw [hin] at hnot
    cases hnot

end Node

/-! ## Checks that end at the gate -/

/-- What a file is refused with because of a node in error. -/
def SourceFile.refusal (f : SourceFile) (e : Node) : Failure :=
  .violation (.located .syntaxError [f.location e])

/-- A header with a node in error ends the check before anything is matched, and the source is not
looked at. -/
theorem validate_of_headerError {parse : Bytes → Node} {header : Bytes} {e : Node}
    (he : (parse header).errorNode? = some e) (headerName : String) (sourceName? : Option String)
    (source? : Option Contents) :
    let f : SourceFile := ⟨headerName, header, parse header⟩
    validate parse headerName (.bytes header) sourceName? source? =
      ⟨[.checking headerName (Mode.ofNames headerName (sourceName?.getD headerName)),
          .parsed headerName header.length, .syntaxError headerName (f.location e)],
        .error (f.refusal e)⟩ := by
  have hparsed := SourceFile.parseChecked_of_error headerName he
  rw [validate_of_refused (by rw [hparsed]), hparsed]
  rfl

/-- A source with a node in error ends the check of a header without bodies before anything is
matched. -/
theorem validate_of_sourceError {parse : Bytes → Node} {headerName sourceName : String}
    {header source : Bytes} {declared : List Declaration} {e : Node}
    (hheader : (parse header).errorNode? = none)
    (hitems : itemsOf parse headerName header = declared.map .declaration)
    (hname : headerName ≠ sourceName) (he : (parse source).errorNode? = some e) :
    let f : SourceFile := ⟨headerName, header, parse header⟩
    let g : SourceFile := ⟨sourceName, source, parse source⟩
    validate parse headerName (.bytes header) (some sourceName) (some (.bytes source)) =
      ⟨[.checking headerName .split, .parsed headerName header.length] ++ f.skipsIn f.itemNodes ++
          [.parsed sourceName source.length, .syntaxError sourceName (g.location e)],
        .error (g.refusal e)⟩ := by
  intro f g
  have hcheck : f.check parse sourceName (some (.bytes source)) =
      ⟨f.skipsIn f.itemNodes ++
          [.parsed sourceName source.length, .syntaxError sourceName (g.location e)],
        .error (g.refusal e)⟩ := by
    rw [SourceFile.check_pair_of_prototypes hitems parse hname, SourceFile.parseSource,
      SourceFile.parseChecked_of_error sourceName he, SourceFile.events_finds]
    rfl
  have hmode : Mode.ofNames headerName sourceName = .split :=
    (Mode.ofNames_eq_split_iff _ _).2 hname
  have hverdict : validate parse headerName (.bytes header) (some sourceName)
      (some (.bytes source)) =
      ⟨.checking headerName (Mode.ofNames headerName sourceName) ::
          .parsed headerName header.length ::
          (f.check parse sourceName (some (.bytes source))).log,
        (f.check parse sourceName (some (.bytes source))).value⟩ :=
    validate_of_readable hheader headerName (some sourceName) (some (.bytes source))
  rw [hverdict, hcheck, hmode]
  rfl

/-- **The gate before a check.**  All trees raise their error flags where they should.

* A file is read exactly when no node of its tree is in error, also when nodes of it are missing.
* Otherwise it is refused with one place, that of the first node in error.  A check of such a
  header ends with this refusal, whatever the source is and whatever items the files have.
* A check of a header without bodies and a source with a node in error ends with the refusal of
  the source, whatever items the source has.

The records of these checks show that nothing has been matched by then. -/
theorem syntax_gate (parse : Bytes → Node) (headerName : String) (header : Bytes)
    (hheader : (parse header).WellFlagged) :
    let f : SourceFile := ⟨headerName, header, parse header⟩
    let read := SourceFile.parseChecked parse headerName (.bytes header)
    ((∃ g, read.value = .ok g) ↔ ∀ n ∈ f.tree.preorder, n.tag.isError = false) ∧
    ((∀ n ∈ f.tree.preorder, n.tag.isError = false) → read.value = .ok f) ∧
    ((∃ n ∈ f.tree.preorder, n.tag.isError = true) →
      ∃ e, f.tree.FirstError e ∧ read.value = .error (f.refusal e) ∧
        ∀ (sourceName? : Option String) (source? : Option Contents),
          validate parse headerName (.bytes header) sourceName? source? =
            ⟨[.checking headerName (Mode.ofNames headerName (sourceName?.getD headerName)),
                .parsed headerName header.length, .syntaxError headerName (f.location e)],
              .error (f.refusal e)⟩) ∧
    ∀ (sourceName : String) (source : Bytes), sourceName ≠ headerName →
      (∀ n ∈ f.tree.preorder, n.tag.isError = false) →
      (∀ i ∈ f.items, i.isDefinition = false) → (parse source).WellFlagged →
      let g : SourceFile := ⟨sourceName, source, parse source⟩
      (∃ n ∈ g.tree.preorder, n.tag.isError = true) →
        ∃ e, g.tree.FirstError e ∧
          validate parse headerName (.bytes header) (some sourceName) (some (.bytes source)) =
            ⟨[.checking headerName .split, .parsed headerName header.length] ++
                f.skipsIn f.itemNodes ++
                [.parsed sourceName source.length, .syntaxError sourceName (g.location e)],
              .error (g.refusal e)⟩ := by
  intro f read
  have hread : (∀ n ∈ f.tree.preorder, n.tag.isError = false) → read.value = .ok f := by
    intro hnone
    have hnone' : (parse header).errorNode? = none := hheader.errorNode?_eq_none_iff.2 hnone
    show (SourceFile.parseChecked parse headerName (.bytes header)).value = .ok f
    rw [SourceFile.parseChecked_of_readable headerName hnone']
  refine ⟨?_, hread, ?_, ?_⟩
  · constructor
    · rintro ⟨g, hg⟩
      obtain ⟨bytes, hbytes, hnone, -⟩ := (SourceFile.parseChecked_value_eq_ok_iff _ _ _ _).1 hg
      obtain rfl := Contents.bytes.inj hbytes
      exact hheader.errorNode?_eq_none_iff.1 hnone
    · intro hnone
      exact ⟨f, hread hnone⟩
  · intro hin
    obtain ⟨e, hfirst⟩ := hheader.exists_firstError hin
    have he : (parse header).errorNode? = some e := hheader.errorNode?_eq_some_iff.2 hfirst
    refine ⟨e, hfirst, ?_, ?_⟩
    · show (SourceFile.parseChecked parse headerName (.bytes header)).value = _
      rw [SourceFile.parseChecked_of_error headerName he]
      rfl
    · intro sourceName? source?
      exact validate_of_headerError he headerName sourceName? source?
  · intro sourceName source hname hnone hprototypes hsource g hin
    obtain ⟨e, hfirst⟩ := hsource.exists_firstError hin
    have he : (parse source).errorNode? = some e := hsource.errorNode?_eq_some_iff.2 hfirst
    obtain ⟨declared, hitems⟩ := (prototypes_iff f.items).2 hprototypes
    refine ⟨e, hfirst, ?_⟩
    exact validate_of_sourceError (hheader.errorNode?_eq_none_iff.2 hnone) hitems hname.symm he

/-- A body with a missing semicolon is read.  With stray braces after it the file is refused at the
first of them, on its own and as the source of the prototype `a`, which has no body there. -/
theorem syntax_gate_missing :
    let header := Utf8.encode "int a();"
    let missing := Utf8.encode "int b()\x7bx\x7d"
    let source := Utf8.encode "int b()\x7bx\x7d\x7dint c()\x7b\x7d\x7d"
    let refused : Except Failure Unit := .error (.violation (.located .syntaxError
      [⟨0, 10, "f.c", "int b()\x7bx\x7d\x7dint c()\x7b\x7d\x7d"⟩]))
    (SourceFile.parseChecked C.parse "f.c" (.bytes missing)).value =
        .ok ⟨"f.c", missing, C.parse missing⟩ ∧
      (validate C.parse "f.c" (.bytes source) none none).value = refused ∧
      (validate C.parse "f.h" (.bytes header) (some "f.c") (some (.bytes source))).value =
        refused := by
  intro header missing source refused
  let g : SourceFile := ⟨"f.c", source, C.parse source⟩
  have hheader : (C.parse header).WellFlagged ∧
      (∀ n ∈ (C.parse header).preorder, n.tag.isError = false) ∧
      ∀ i ∈ itemsOf C.parse "f.h" header, i.isDefinition = false := by
    decide +kernel
  have hmissing : (C.parse missing).WellFlagged ∧
      ∀ n ∈ (C.parse missing).preorder, n.tag.isError = false := by
    decide +kernel
  have hsource : (C.parse source).WellFlagged ∧
      (∃ n ∈ (C.parse source).preorder, n.tag.isError = true) ∧
      (C.parse source).errorNode?.map g.location =
        some ⟨0, 10, "f.c", "int b()\x7bx\x7d\x7dint c()\x7b\x7d\x7d"⟩ := by
    decide +kernel
  obtain ⟨hflags, hin, hplace⟩ := hsource
  have hrefused : ∀ e, (C.parse source).FirstError e → .error (g.refusal e) = refused := by
    intro e hfirst
    rw [hflags.errorNode?_eq_some_iff.2 hfirst, Option.map_some, Option.some.injEq] at hplace
    rw [SourceFile.refusal, hplace]
  refine ⟨?_, ?_, ?_⟩
  · exact (syntax_gate C.parse "f.c" missing hmissing.1).2.1 hmissing.2
  · obtain ⟨e, hfirst, -, hverdict⟩ := (syntax_gate C.parse "f.c" source hflags).2.2.1 hin
    rw [hverdict none none]
    exact hrefused e hfirst
  · obtain ⟨e, hfirst, hverdict⟩ := (syntax_gate C.parse "f.h" header hheader.1).2.2.2 "f.c" source
      (by decide) hheader.2.1 hheader.2.2 hflags hin
    rw [hverdict]
    exact hrefused e hfirst

end PrototypeOrder
