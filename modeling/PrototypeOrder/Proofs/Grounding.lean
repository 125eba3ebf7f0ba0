/-
# Where violations come from

A check of files given as bytes succeeds or reports a violation, and what it reports can be
found in the files: every place is the place of a node of one of the two trees.

* `SourceFile.mem_items_iff` : the items of a file, each with the node it is read from and the
  identifier that names it;
* `Matcher.outcome_faulted` : what bodies held against prototypes can be faulted for;
* `Violation.Grounded` : what each violation says about the files.

The result is that a check reports grounded violations only.  The one other way to fail is that
a source is named whose contents are needed and not given.
-/
import PrototypeOrder.Proofs.Soundness

namespace PrototypeOrder

namespace Node

/-! ## The nodes of a tree -/

theorem mem_preorder_self (n : Node) : n ∈ n.preorder := by
  rw [preorder_eq]
  exact List.mem_cons_self

mutual

/-- What is below a node of a tree is in the tree. -/
theorem mem_preorder_trans {n k : Node} (hk : k ∈ n.preorder) :
    (t : Node) → n ∈ t.preorder → k ∈ t.preorder
  | .mk tag cs, hn => by
    rw [preorder] at hn
    rcases List.mem_cons.1 hn with rfl | hn
    · exact hk
    · rw [preorder]
      exact List.mem_cons_of_mem _ (mem_preorderAll_trans hk cs hn)

theorem mem_preorderAll_trans {n k : Node} (hk : k ∈ n.preorder) :
    (ts : List Node) → n ∈ preorderAll ts → k ∈ preorderAll ts
  | [], hn => by
    rw [preorderAll] at hn
    cases hn
  | t :: ts, hn => by
    rw [preorderAll, List.mem_append] at hn ⊢
    rcases hn with hn | hn
    · exact Or.inl (mem_preorder_trans hk t hn)
    · exact Or.inr (mem_preorderAll_trans hk ts hn)

end

theorem mem_preorder_of_mem_children {n c : Node} (h : c ∈ n.children) : c ∈ n.preorder := by
  rw [preorder_eq, preorderAll_eq_flatMap]
  exact List.mem_cons_of_mem _ (List.mem_flatMap.2 ⟨c, h, mem_preorder_self c⟩)

/-! ## What is found in a tree -/

/-- The node in error that is found is a node of the tree, and in error. -/
theorem mem_of_errorNode? {t n : Node} (h : t.errorNode? = some n) :
    n ∈ t.preorder ∧ n.tag.isError = true := by
  rw [errorNode?] at h
  split at h
  · rw [walk_eq_preorder] at h
    have herror := List.find?_some h
    exact ⟨List.mem_of_find?_eq_some h, herror⟩
  · cases h

/-- The identifier that names a function is below the node of the function. -/
theorem mem_of_functionName? {n ident : Node} (h : n.functionName? = some ident) :
    ident ∈ n.preorder := by
  rw [functionName?, walk_eq_preorder] at h
  obtain ⟨declarator, hmem, hname⟩ := List.exists_of_findSome?_eq_some h
  rw [declaredName?] at hname
  split at hname
  · have hchild : ident ∈ declarator.children :=
      List.mem_of_find?_eq_some (Option.filter_eq_some_iff.1 hname).1
    exact mem_preorder_trans (mem_preorder_of_mem_children hchild) n hmem
  · cases hname

end Node

namespace SourceFile

/-! ## The items of a file -/

/-- The item `i` of a file is read from the node `n` of its tree, and the identifier `ident`
names the function. -/
inductive Reads (f : SourceFile) : (i : Item) → (n ident : Node) → Prop where
  | declaration {n ident : Node} (hn : n ∈ f.tree.preorder) (hkind : n.kind = "declaration")
      (hident : n.functionName? = some ident) :
      Reads f (.declaration ⟨ident.text f.bytes, f.location ident, some (f.location n)⟩) n ident
  | definition {n ident : Node} (hn : n ∈ f.tree.preorder)
      (hkind : n.kind = "function_definition") (hident : n.functionName? = some ident) :
      Reads f (.definition ⟨ident.text f.bytes, f.location ident, n.isStatic f.bytes⟩) n ident

variable {f : SourceFile} {i : Item} {n ident : Node}

theorem mem_itemNodes_iff (f : SourceFile) (n : Node) :
    n ∈ f.itemNodes ↔
      n ∈ f.tree.preorder ∧ (n.kind = "declaration" ∨ n.kind = "function_definition") := by
  simp [itemNodes, Node.walkKinds, Node.walk_eq_preorder, Node.itemKinds]

theorem mem_items_iff_findAt (f : SourceFile) (i : Item) :
    i ∈ f.items ↔ ∃ n ∈ f.itemNodes, f.findAt f.location n = some (.item i) := by
  rw [items, finds_eq, List.filterMap_filterMap, List.mem_filterMap]
  refine exists_congr fun n => and_congr_right fun _ => ?_
  cases f.findAt f.location n with
  | none => simp
  | some find => cases find <;> simp [Find.item?]

/-- The items of a file are those that are read from some node of its tree. -/
theorem mem_items_iff (f : SourceFile) (i : Item) :
    i ∈ f.items ↔ ∃ n ident, f.Reads i n ident := by
  rw [mem_items_iff_findAt]
  constructor
  · rintro ⟨n, hn, hfind⟩
    obtain ⟨hmem, hkind⟩ := (mem_itemNodes_iff f n).1 hn
    rw [findAt] at hfind
    split at hfind
    · rename_i hdeclaration
      obtain ⟨ident, hident, hi⟩ := Option.map_eq_some_iff.1 hfind
      cases hi
      exact ⟨n, ident, .declaration hmem hdeclaration hident⟩
    · rename_i hother
      have hdefinition := hkind.resolve_left hother
      split at hfind
      · rename_i ident hident
        cases hfind
        exact ⟨n, ident, .definition hmem hdefinition hident⟩
      · cases hfind
  · rintro ⟨n, ident, hreads⟩
    cases hreads with
    | declaration hn hkind hident =>
      refine ⟨n, (mem_itemNodes_iff f n).2 ⟨hn, Or.inl hkind⟩, ?_⟩
      rw [findAt, if_pos hkind, hident]
      rfl
    | definition hn hkind hident =>
      refine ⟨n, (mem_itemNodes_iff f n).2 ⟨hn, Or.inr hkind⟩, ?_⟩
      rw [findAt, if_neg (by rw [hkind]; decide), hident]

/-- The identifier that names an item is a node of the tree. -/
theorem Reads.ident_mem (h : f.Reads i n ident) : ident ∈ f.tree.preorder := by
  cases h with
  | declaration hn _ hident =>
    exact Node.mem_preorder_trans (Node.mem_of_functionName? hident) f.tree hn
  | definition hn _ hident =>
    exact Node.mem_preorder_trans (Node.mem_of_functionName? hident) f.tree hn

theorem Reads.location (h : f.Reads i n ident) : i.location = f.location ident := by
  cases h with
  | declaration => rfl
  | definition => rfl

theorem Reads.name (h : f.Reads i n ident) : i.name = ident.text f.bytes := by
  cases h with
  | declaration => rfl
  | definition => rfl

end SourceFile

/-! ## What bodies can be faulted for -/

namespace Matcher

/-- What items can be faulted for when they are held against the prototypes `declared`. -/
inductive Faulted (declared : List Declaration) (items : List Item) : Violation → Prop where
  /-- a prototype that has no body -/
  | undefined {p : Declaration} (hp : p ∈ declared) :
      Faulted declared items (.located .undefinedDeclaration [p.location])
  /-- a prototype among the bodies -/
  | unexpected {p : Declaration} (hp : .declaration p ∈ items) :
      Faulted declared items (.located .unexpectedDeclaration [p.blame])
  /-- a body that has no prototype -/
  | undeclared {d : Definition} (hd : .definition d ∈ items) (hcompared : d.isExempt = false) :
      Faulted declared items (.located .undeclaredDefinition [d.location])
  /-- a body whose turn is that of another prototype -/
  | outOfOrder {p : Declaration} {d : Definition} (hp : p ∈ declared)
      (hd : .definition d ∈ items) (hcompared : d.isExempt = false) (hname : p.name ≠ d.name) :
      Faulted declared items (.located .outOfOrder [p.location, d.location])

/-- An item that offends is faulted for it. -/
theorem faulted_of_offends {declared : List Declaration} {items before : List Item} {x : Item}
    (hx : x ∈ items) (hoffends : Offends declared before x) :
    Faulted declared items (offence declared[comparedCount before]? x) := by
  cases x with
  | declaration p => exact .unexpected hx
  | definition d =>
    obtain ⟨hcompared, hturn⟩ := hoffends
    cases hp : declared[comparedCount before]? with
    | none => exact .undeclared hx hcompared
    | some p =>
      have hlt := (List.getElem?_eq_some_iff.1 hp).1
      have hname : p.name ≠ d.name := by
        rcases hturn with hle | ⟨q, hq, hname⟩
        · exact absurd hlt (Nat.not_lt.2 hle)
        · rw [hp, Option.some.injEq] at hq
          rw [hq]
          exact hname
      exact .outOfOrder (List.mem_of_getElem? hp) hx hcompared hname

/-- Bodies held against prototypes succeed, or are faulted for something. -/
theorem outcome_faulted (declared : List Declaration) (items : List Item) :
    outcome declared items = .ok () ∨
      ∃ v, outcome declared items = .error (.violation v) ∧ Faulted declared items v := by
  rcases clean_or_firstOffence declared items with hclean | ⟨before, x, after, hfirst⟩
  · rw [outcome_of_clean hclean]
    cases hp : declared[comparedCount items]? with
    | none => exact Or.inl rfl
    | some p => exact Or.inr ⟨_, rfl, .undefined (List.mem_of_getElem? hp)⟩
  · have hx : x ∈ items := by simp [hfirst.split]
    rw [outcome_of_firstOffence hfirst]
    exact Or.inr ⟨_, rfl, faulted_of_offends hx hfirst.offends⟩

end Matcher

/-! ## What violations say about the files -/

/-- The source that a header is checked with: the header has no body, and a source with
another name is given. -/
structure LooksAt (header : SourceFile) (source? : Option SourceFile) (f : SourceFile) :
    Prop where
  given : source? = some f
  names : Mode.ofNames header.name f.name = .split
  noBody : ∀ i ∈ header.items, i.isDefinition = false

/-- The file whose items are held against the prototypes of the header: the header itself if
it has a body, and otherwise the source. -/
inductive Reconciled (header : SourceFile) (source? : Option SourceFile) : SourceFile → Prop where
  | header (h : ∃ i ∈ header.items, i.isDefinition = true) : Reconciled header source? header
  | source {f : SourceFile} (h : LooksAt header source? f) : Reconciled header source? f

/-- What each violation says about the header, which is checked against a source of the given
name, and about that source. -/
inductive Violation.Grounded (header : SourceFile) (sourceName : String)
    (source? : Option SourceFile) : Violation → Prop where
  /-- the header is checked on its own and has no items -/
  | emptyFile (hmode : Mode.ofNames header.name sourceName = .headerOnly)
      (hitems : header.items = []) :
      Grounded header sourceName source? (.emptyFile header.name)
  /-- shown at a node in error, of the header or of the source -/
  | syntaxError {f : SourceFile} {n : Node} (hf : f = header ∨ LooksAt header source? f)
      (hn : n ∈ f.tree.preorder) (herror : n.tag.isError = true) :
      Grounded header sourceName source? (.located .syntaxError [f.location n])
  /-- shown at the name of a prototype of the header -/
  | undefined {p : Declaration} {n ident : Node} (hp : header.Reads (.declaration p) n ident) :
      Grounded header sourceName source?
        (.located .undefinedDeclaration [header.location ident])
  /-- shown where a prototype of the reconciled file begins -/
  | unexpected {f : SourceFile} {p : Declaration} {n ident : Node}
      (hf : Reconciled header source? f) (hp : f.Reads (.declaration p) n ident) :
      Grounded header sourceName source? (.located .unexpectedDeclaration [f.location n])
  /-- shown at the name of a compared body of the reconciled file -/
  | undeclared {f : SourceFile} {d : Definition} {n ident : Node}
      (hf : Reconciled header source? f) (hd : f.Reads (.definition d) n ident)
      (hcompared : d.isExempt = false) :
      Grounded header sourceName source? (.located .undeclaredDefinition [f.location ident])
  /-- shown at the name of a prototype of the header and at that of a compared body of the
  reconciled file, which have different names -/
  | outOfOrder {f : SourceFile} {p : Declaration} {d : Definition} {n ident n' ident' : Node}
      (hp : header.Reads (.declaration p) n ident) (hf : Reconciled header source? f)
      (hd : f.Reads (.definition d) n' ident') (hcompared : d.isExempt = false)
      (hname : p.name ≠ d.name) :
      Grounded header sourceName source?
        (.located .outOfOrder [header.location ident, f.location ident'])

/-- What items of the reconciled file are faulted for is grounded. -/
theorem grounded_of_faulted {header : SourceFile} {source? : Option SourceFile} {f : SourceFile}
    {declared : List Declaration} {items : List Item} {v : Violation} (sourceName : String)
    (hf : Reconciled header source? f) (hdeclared : ∀ p ∈ declared, .declaration p ∈ header.items)
    (hitems : ∀ i ∈ items, i ∈ f.items) (h : Matcher.Faulted declared items v) :
    v.Grounded header sourceName source? := by
  cases h with
  | @undefined p hp =>
    obtain ⟨n, ident, hreads⟩ := (header.mem_items_iff _).1 (hdeclared p hp)
    have hplace : p.location = header.location ident := hreads.location
    rw [hplace]
    exact .undefined hreads
  | unexpected hp =>
    obtain ⟨n, ident, hreads⟩ := (f.mem_items_iff _).1 (hitems _ hp)
    cases hreads with
    | declaration hn hkind hident => exact .unexpected hf (.declaration hn hkind hident)
  | @undeclared d hd hcompared =>
    obtain ⟨n, ident, hreads⟩ := (f.mem_items_iff _).1 (hitems _ hd)
    have hplace : d.location = f.location ident := hreads.location
    rw [hplace]
    exact .undeclared hf hreads hcompared
  | @outOfOrder p d hp hd hcompared hname =>
    obtain ⟨n, ident, hreads⟩ := (header.mem_items_iff _).1 (hdeclared p hp)
    obtain ⟨n', ident', hreads'⟩ := (f.mem_items_iff _).1 (hitems _ hd)
    have hplace : p.location = header.location ident := hreads.location
    have hplace' : d.location = f.location ident' := hreads'.location
    rw [hplace, hplace']
    exact .outOfOrder hreads hf hreads' hcompared hname

/-- A place is that of a node of the header or of the source that is looked at. -/
def Location.IsNode (header : SourceFile) (source? : Option SourceFile) (l : Location) : Prop :=
  ∃ f n, (f = header ∨ LooksAt header source? f) ∧ n ∈ f.tree.preorder ∧ l = f.location n

theorem Reconciled.header_or_source {header : SourceFile} {source? : Option SourceFile}
    {f : SourceFile} (h : Reconciled header source? f) :
    f = header ∨ LooksAt header source? f := by
  cases h with
  | header => exact Or.inl rfl
  | source h => exact Or.inr h

theorem SourceFile.Reads.node_mem {f : SourceFile} {i : Item} {n ident : Node}
    (h : f.Reads i n ident) : n ∈ f.tree.preorder := by
  cases h with
  | declaration hn => exact hn
  | definition hn => exact hn

/-- All places of a grounded violation are places of nodes. -/
theorem Violation.Grounded.locations_isNode {header : SourceFile} {sourceName : String}
    {source? : Option SourceFile} {v : Violation} (h : v.Grounded header sourceName source?) :
    ∀ l ∈ v.locations, l.IsNode header source? := by
  intro l hl
  cases h with
  | emptyFile => cases hl
  | syntaxError hf hn =>
    rw [List.mem_singleton.1 hl]
    exact ⟨_, _, hf, hn, rfl⟩
  | undefined hp =>
    rw [List.mem_singleton.1 hl]
    exact ⟨_, _, Or.inl rfl, hp.ident_mem, rfl⟩
  | unexpected hf hp =>
    rw [List.mem_singleton.1 hl]
    exact ⟨_, _, hf.header_or_source, hp.node_mem, rfl⟩
  | undeclared hf hd =>
    rw [List.mem_singleton.1 hl]
    exact ⟨_, _, hf.header_or_source, hd.ident_mem, rfl⟩
  | outOfOrder hp hf hd =>
    rcases List.mem_cons.1 hl with rfl | hl
    · exact ⟨_, _, Or.inl rfl, hp.ident_mem, rfl⟩
    · rw [List.mem_singleton.1 hl]
      exact ⟨_, _, hf.header_or_source, hd.ident_mem, rfl⟩

/-! ## Whole checks -/

/-- What can come of a check: it succeeds, reports a violation that is grounded, or lacks the
contents of a source that is needed.  In particular the matcher is never misused. -/
def Explained (header : SourceFile) (sourceName : String) (source? : Option SourceFile)
    (result : Except Failure Unit) : Prop :=
  result = .ok () ∨
    (∃ v, result = .error (.violation v) ∧ v.Grounded header sourceName source?) ∨
    (result = .error .missingSource ∧ source? = none ∧
      Mode.ofNames header.name sourceName = .split ∧ header.tree.errorNode? = none ∧
      ∀ i ∈ header.items, i.isDefinition = false)

theorem Violation.Grounded.explained {header : SourceFile} {sourceName : String}
    {source? : Option SourceFile} {v : Violation} (h : v.Grounded header sourceName source?) :
    Explained header sourceName source? (.error (.violation v)) :=
  Or.inr (Or.inl ⟨v, rfl, h⟩)

theorem Mode.ofNames_eq_headerOnly_iff (header source : String) :
    Mode.ofNames header source = .headerOnly ↔ header = source := by
  by_cases h : header = source
  · simp [Mode.ofNames, h]
  · simp [Mode.ofNames, h]

theorem Mode.ofNames_eq_split_iff (header source : String) :
    Mode.ofNames header source = .split ↔ header ≠ source := by
  by_cases h : header = source
  · simp [Mode.ofNames, h]
  · simp [Mode.ofNames, h]

theorem explained_outcome {header : SourceFile} {source? : Option SourceFile} {f : SourceFile}
    {declared : List Declaration} {items : List Item} (sourceName : String)
    (hf : Reconciled header source? f) (hdeclared : ∀ p ∈ declared, .declaration p ∈ header.items)
    (hitems : ∀ i ∈ items, i ∈ f.items) :
    Explained header sourceName source? (Matcher.outcome declared items) := by
  rcases Matcher.outcome_faulted declared items with hok | ⟨v, hv, hfaulted⟩
  · exact Or.inl hok
  · rw [hv]
    exact (grounded_of_faulted sourceName hf hdeclared hitems hfaulted).explained

/-- A file that is refused is refused for a node in error. -/
theorem explained_error {header : SourceFile} {source? : Option SourceFile} {f : SourceFile}
    {n : Node} (sourceName : String) (hf : f = header ∨ LooksAt header source? f)
    (h : f.tree.errorNode? = some n) :
    Explained header sourceName source?
      (.error (.violation (.located .syntaxError [f.location n]))) := by
  obtain ⟨hn, herror⟩ := Node.mem_of_errorNode? h
  exact (Violation.Grounded.syntaxError hf hn herror).explained

/-- A file on its own without a body is refused for its first prototype, or for having no
items. -/
theorem explained_withoutBodies {header : SourceFile} {declared : List Declaration}
    (hitems : header.items = declared.map .declaration) (source? : Option SourceFile) :
    Explained header header.name source?
      (.error (Matcher.withoutBodies ⟨declared, .scanning, 0⟩ header.name)) := by
  cases declared with
  | nil =>
    have hmode := (Mode.ofNames_eq_headerOnly_iff header.name header.name).2 rfl
    exact (Violation.Grounded.emptyFile hmode hitems).explained
  | cons p declared =>
    obtain ⟨n, ident, hreads⟩ := (header.mem_items_iff (.declaration p)).1 (by simp [hitems])
    have hplace : p.location = header.location ident := hreads.location
    have hfailure : Matcher.withoutBodies ⟨p :: declared, .scanning, 0⟩ header.name =
        .violation (.located .undefinedDeclaration [p.location]) := rfl
    rw [hfailure, hplace]
    exact (Violation.Grounded.undefined hreads).explained

/-- The check of a header without a body against a source. -/
theorem explained_pair {header : SourceFile} {declared : List Declaration}
    (hitems : header.items = declared.map .declaration)
    (herror : header.tree.errorNode? = none) (parse : Bytes → Node) {sourceName : String}
    (hnames : header.name ≠ sourceName) (source? : Option Bytes) :
    Explained header sourceName (source?.map fun b => ⟨sourceName, b, parse b⟩)
      (header.check parse sourceName (source?.map .bytes)).value := by
  have hmode := (Mode.ofNames_eq_split_iff _ _).2 hnames
  have hbody := (prototypes_iff header.items).1 ⟨declared, hitems⟩
  cases source? with
  | none =>
    rw [SourceFile.check_pair_of_prototypes hitems parse hnames]
    exact Or.inr (Or.inr ⟨rfl, rfl, hmode, herror, hbody⟩)
  | some b =>
    simp only [Option.map_some]
    have hlooks : LooksAt header (some ⟨sourceName, b, parse b⟩) ⟨sourceName, b, parse b⟩ :=
      ⟨rfl, hmode, hbody⟩
    cases hsource : (parse b).errorNode? with
    | some n =>
      rw [SourceFile.check_pair_of_prototypes hitems parse hnames, SourceFile.parseSource,
        SourceFile.parseChecked_of_error sourceName hsource]
      exact explained_error sourceName (Or.inr hlooks) hsource
    | none =>
      rw [SourceFile.check_value_of_source hitems hnames hsource]
      exact explained_outcome sourceName (.source hlooks) (by simp [hitems]) fun _ hi => hi

/-- Whatever comes of a check of files given as bytes can be explained. -/
theorem validate_explained (parse : Bytes → Node) (headerName : String) (header : Bytes)
    (sourceName? : Option String) (source? : Option Bytes) :
    Explained ⟨headerName, header, parse header⟩ (sourceName?.getD headerName)
      (source?.map fun b => ⟨sourceName?.getD headerName, b, parse b⟩)
      (validate parse headerName (.bytes header) sourceName? (source?.map .bytes)).value := by
  cases herror : (parse header).errorNode? with
  | some n =>
    have hrefused := SourceFile.parseChecked_of_error headerName herror
    rw [validate_of_refused (congrArg Logged.value hrefused)]
    exact explained_error _ (Or.inl rfl) herror
  | none =>
    rcases prototypes_or_body (itemsOf parse headerName header) with
      ⟨declared, hitems⟩ | ⟨declared, d, rest, hitems⟩
    · rw [validate_value_of_readable herror]
      by_cases hname : headerName = sourceName?.getD headerName
      · rw [SourceFile.check_alone_of_prototypes hitems parse hname, ← hname]
        exact explained_withoutBodies hitems _
      · exact explained_pair hitems herror parse hname source?
    · have hbody := (body_iff _).1 ⟨declared, d, rest, hitems⟩
      rw [validate_value_of_body herror hitems]
      refine explained_outcome _ (.header hbody) ?_ ?_
      · intro p hp
        rw [show SourceFile.items _ = _ from hitems]
        simp [hp]
      · intro i hi
        rw [show SourceFile.items _ = _ from hitems]
        exact List.mem_append_right _ hi

/-- A check that is given both contents succeeds or finds a violation. -/
theorem validate_pair_cases (parse : Bytes → Node) (headerName : String) (header : Bytes)
    (sourceName : String) (source : Bytes) :
    let value := (validate parse headerName (.bytes header) (some sourceName)
      (some (.bytes source))).value
    value = .ok () ∨ ∃ v, value = .error (.violation v) := by
  rcases validate_explained parse headerName header (some sourceName) (some source) with
    hok | ⟨v, hv, -⟩ | ⟨-, hmissing, -⟩
  · exact Or.inl hok
  · exact Or.inr ⟨v, hv⟩
  · cases hmissing

/-- A check of a header on its own succeeds or finds a violation. -/
theorem validate_alone_cases (parse : Bytes → Node) (headerName : String) (header : Bytes) :
    let value := (validate parse headerName (.bytes header) none none).value
    value = .ok () ∨ ∃ v, value = .error (.violation v) := by
  rcases validate_explained parse headerName header none none with
    hok | ⟨v, hv, -⟩ | ⟨-, -, hmode, -⟩
  · exact Or.inl hok
  · exact Or.inr ⟨v, hv⟩
  · exact absurd rfl ((Mode.ofNames_eq_split_iff _ _).1 hmode)

/-- A source that is needed and not given makes a check fail. -/
theorem validate_missing {parse : Bytes → Node} {headerName : String} {header : Bytes}
    {sourceName? : Option String} (herror : (parse header).errorNode? = none)
    (hbody : ∀ i ∈ itemsOf parse headerName header, i.isDefinition = false)
    (hnames : headerName ≠ sourceName?.getD headerName) :
    (validate parse headerName (.bytes header) sourceName? none).value =
      .error .missingSource := by
  obtain ⟨declared, hitems⟩ := (prototypes_iff _).2 hbody
  rw [validate_value_of_readable herror,
    SourceFile.check_pair_of_prototypes hitems parse hnames]
  rfl

/-- **Violations are grounded.**  A header and a source, if one is given, are checked as bytes
with any trees.  The check succeeds, reports a violation that is grounded in the files, all of
whose places are places of nodes of their trees, or lacks the contents of the source.

The last happens exactly when these are not given, the source has another name, and the header
can be read and has no body.  In no case is the matcher misused. -/
theorem validate_grounded (parse : Bytes → Node) (headerName : String) (header : Bytes)
    (sourceName? : Option String) (source? : Option Bytes) :
    let sourceName := sourceName?.getD headerName
    let headerFile : SourceFile := ⟨headerName, header, parse header⟩
    let sourceFile? : Option SourceFile := source?.map fun b => ⟨sourceName, b, parse b⟩
    let result :=
      (validate parse headerName (.bytes header) sourceName? (source?.map .bytes)).value
    (result = .ok () ∨
      (∃ v, result = .error (.violation v) ∧ v.Grounded headerFile sourceName sourceFile? ∧
        ∀ l ∈ v.locations, l.IsNode headerFile sourceFile?) ∨
      result = .error .missingSource) ∧
    (result = .error .missingSource ↔
      source? = none ∧ Mode.ofNames headerName sourceName = .split ∧
        headerFile.tree.errorNode? = none ∧
        ∀ i ∈ headerFile.items, i.isDefinition = false) := by
  intro sourceName headerFile sourceFile? result
  have hexplained : Explained headerFile sourceName sourceFile? result :=
    validate_explained parse headerName header sourceName? source?
  constructor
  · rcases hexplained with hok | ⟨v, hv, hgrounded⟩ | ⟨hmissing, -⟩
    · exact Or.inl hok
    · exact Or.inr (Or.inl ⟨v, hv, hgrounded, hgrounded.locations_isNode⟩)
    · exact Or.inr (Or.inr hmissing)
  · constructor
    · intro hmissing
      rcases hexplained with hok | ⟨v, hv, -⟩ | ⟨-, hsource, hmode, herror, hbody⟩
      · rw [hok] at hmissing
        cases hmissing
      · rw [hv] at hmissing
        cases hmissing
      · exact ⟨Option.map_eq_none_iff.1 hsource, hmode, herror, hbody⟩
    · rintro ⟨hsource, hmode, herror, hbody⟩
      have hnames := (Mode.ofNames_eq_split_iff _ _).1 hmode
      have hresult := validate_missing herror hbody hnames
      rw [← hresult]
      simp only [result, hsource, Option.map_none]

end PrototypeOrder
