/-
# What a check records

A file is read lazily.  A body without a name is recorded when the reading comes to it, and the
reading ends at the first item that offends.  So the record of a check can be read off the nodes of
the trees, and the nodes after the one that ends the reading leave no trace.

* `Matcher.settle_of_stop`, `Matcher.log_settle_of_clean` : the record of a reconciliation;
* `SourceFile.FirstBody`, `SourceFile.StopsAt`, `SourceFile.ReadUpTo` : where a reading ends;
* `SourceFile.check_of_stop`, `SourceFile.check_of_source_stop` : checks that an item ends;
* `SourceFile.BeginsAlike` : trees that agree on the nodes that come first.
-/
import PrototypeOrder.C.Outline
import PrototypeOrder.Proofs.Grounding
import PrototypeOrder.Proofs.ItemNodes

namespace PrototypeOrder

/-- The record that ends a check, if it succeeds. -/
def closing (value : Except Failure Unit) (functions : Nat) : List Event :=
  match value with
  | .ok () => [.matched functions]
  | .error _ => []

/-- The warning of a pair whose header has a body: the source is left out. -/
def leftOut (mode : Mode) (headerName sourceName : String) : List Event :=
  match mode with
  | .headerOnly => []
  | .split => [.sourceIgnored headerName sourceName]

theorem leftOut_ofNames (headerName sourceName : String) :
    leftOut (Mode.ofNames headerName sourceName) headerName sourceName =
      if headerName = sourceName then [] else [.sourceIgnored headerName sourceName] := by
  unfold Mode.ofNames
  by_cases hname : headerName = sourceName
  · rw [if_pos hname, if_pos hname]
    rfl
  · rw [if_neg hname, if_neg hname]
    rfl

namespace Matcher

/-! ## The record of a reconciliation -/

/-- A reconciliation that has not been stopped goes on, and has recorded all that it passed over. -/
theorem reconcile_append {m : Matcher} {early : List Find}
    (h : (m.reconcile early).value.stop = none) (finds : List Find) :
    m.reconcile (early ++ finds) =
      let r := (m.reconcile early).value.matcher.reconcile finds
      ⟨early.filterMap Find.event? ++ r.log, r.value⟩ := by
  induction early generalizing m with
  | nil => rfl
  | cons f early ih =>
    cases f with
    | nameless file row =>
      have hrest := ih h
      rw [List.cons_append, reconcile, hrest]
      rfl
    | item i =>
      cases hi : m.reconcileOne i with
      | mk m' stop =>
        cases stop with
        | none =>
          rw [reconcile_item_of_none hi] at h ⊢
          rw [List.cons_append, reconcile_item_of_none hi, ih h]
          rfl
        | some stop =>
          rw [reconcile_item_of_some hi] at h
          cases h

/-- A reconciliation of clean items records all that it passes over, and goes on from the matcher
that they leave. -/
theorem reconcile_append_of_clean {m : Matcher} {finds : List Find} {items : List Item}
    (hm : m.TakesItems) (hitems : finds.filterMap Find.item? = items)
    (h : Clean m.pending items) :
    ∃ m' : Matcher, m'.TakesItems ∧ m'.pending = m.pending.drop (comparedCount items) ∧
      m'.matched = m.matched + comparedCount items ∧
      ∀ later, m.reconcile (finds ++ later) =
        ⟨finds.filterMap Find.event? ++ (m'.reconcile later).log, (m'.reconcile later).value⟩ := by
  obtain ⟨m', hm', hpending, hmatched, hvalue⟩ := reconcile_of_clean hm hitems h
  refine ⟨m', hm', hpending, hmatched, ?_⟩
  intro later
  have hstop : (m.reconcile finds).value.stop = none := by rw [hvalue]
  rw [reconcile_append hstop, hvalue]

/-- The first item that offends ends a reconciliation, whatever comes after it. -/
theorem settle_of_stop {m : Matcher} {early : List Find} {items : List Item} {x : Item}
    (hm : m.TakesItems) (hitems : early.filterMap Find.item? = items)
    (hclean : Clean m.pending items) (hx : Offends m.pending items x) (late : List Find) :
    m.settle (early ++ .item x :: late) =
      ⟨early.filterMap Find.event?,
        .error (.violation (offence m.pending[comparedCount items]? x))⟩ := by
  obtain ⟨m', hm', hpending, -, hreconcile⟩ := reconcile_append_of_clean hm hitems hclean
  have hx' : Offends m'.pending [] x := by
    rw [hpending, ← offends_append, List.append_nil]
    exact hx
  have hturn : m'.pending[0]? = m.pending[comparedCount items]? := by
    rw [hpending, List.getElem?_drop, Nat.add_zero]
  rw [settle, hreconcile, reconcile_item_of_some (reconcileOne_of_offends hm' hx'), hturn]
  simp [Logged.pure, Failure.ofStop]

/-- A reconciliation of clean items records all that it passes over, and at its end the number of
prototypes if none is left over. -/
theorem log_settle_of_clean {m : Matcher} {finds : List Find} {items : List Item}
    (hm : m.TakesItems) (hmatched : m.matched = 0) (hitems : finds.filterMap Find.item? = items)
    (h : Clean m.pending items) :
    (m.settle finds).log =
      finds.filterMap Find.event? ++ closing (m.settle finds).value m.pending.length := by
  obtain ⟨m', hm', hpending, hmatched', hreconcile⟩ := reconcile_append_of_clean hm hitems h
  have hfinds := hreconcile []
  rw [List.append_nil] at hfinds
  have hphase : m'.phase ≠ .violated := hm'.not_violated
  rw [settle, hfinds]
  cases hp : m'.pending with
  | nil =>
    -- no prototype is left, and clean items have not used up more than there were
    have hcount : m'.matched = m.pending.length := by
      have hle := h.comparedCount_le
      have hlength := congrArg List.length hpending
      rw [hp, List.length_nil, List.length_drop] at hlength
      omega
    simp [reconcile, Logged.pure, Logged.after, finish, hphase, hp, closing, hcount]
  | cons p rest => simp [reconcile, Logged.pure, finish, hphase, hp, closing]

end Matcher

namespace SourceFile

/-! ## Where a reading ends -/

/-- Of the nodes that items are read from, `n` gives the first body, `d`.  The nodes `before` it
give the prototypes `declared`. -/
structure FirstBody (f : SourceFile) (before : List Node) (n : Node) (after : List Node)
    (declared : List Declaration) (d : Definition) : Prop where
  split : f.itemNodes = before ++ n :: after
  prototypes : f.itemsIn before = declared.map .declaration
  body : f.item? n = some (.definition d)

/-- Of some nodes, `n` gives the first item `x` that offends, and `read` come before it. -/
structure StopsAt (f : SourceFile) (declared : List Declaration) (nodes read : List Node)
    (n : Node) (x : Item) (late : List Node) : Prop where
  split : nodes = read ++ n :: late
  item : f.item? n = some x
  offends : Offends declared (f.itemsIn read) x
  clean : Clean declared (f.itemsIn read)

/-- Of some nodes, `read` come before the first item that offends; they are all if none does. -/
def ReadUpTo (f : SourceFile) (declared : List Declaration) (nodes read : List Node) : Prop :=
  (∃ n x late, f.StopsAt declared nodes read n x late) ∨
    Clean declared (f.itemsIn nodes) ∧ read = nodes

variable {f : SourceFile} {declared : List Declaration} {nodes read before after late : List Node}
  {n : Node} {x : Item} {d : Definition}

/-- A file with a body has a first one. -/
theorem exists_firstBody (h : ∃ i ∈ f.items, i.isDefinition = true) :
    ∃ before n after declared d, f.FirstBody before n after declared d := by
  rw [← body_iff, items_eq_itemsIn] at h
  obtain ⟨declared, d, rest, hitems⟩ := h
  obtain ⟨before, n, after, hnodes, hbefore, hn, -⟩ := f.itemsIn_split hitems
  exact ⟨before, n, after, declared, d, hnodes, hbefore, hn⟩

/-- A reading ends somewhere. -/
theorem exists_readUpTo (f : SourceFile) (declared : List Declaration) (nodes : List Node) :
    ∃ read, f.ReadUpTo declared nodes read := by
  rcases clean_or_firstOffence declared (f.itemsIn nodes) with hclean | ⟨before, x, after, hfirst⟩
  · exact ⟨nodes, Or.inr ⟨hclean, rfl⟩⟩
  · obtain ⟨read, n, late, hnodes, hread, hn, -⟩ := f.itemsIn_split hfirst.split
    rw [← hread] at hfirst
    exact ⟨read, Or.inl ⟨n, x, late, hnodes, hn, hfirst.offends, hfirst.clean⟩⟩

theorem StopsAt.findsIn_eq (h : f.StopsAt declared nodes read n x late) :
    f.findsIn nodes = f.findsIn read ++ .item x :: f.findsIn late := by
  rw [h.split, findsIn_append, f.findsIn_cons_of_item? h.item]

theorem FirstBody.finds_eq (h : f.FirstBody before n after declared d) :
    f.finds = f.findsIn before ++ f.findsIn (n :: after) := by
  rw [finds_eq_findsIn, h.split, findsIn_append]

/-- What is read is some of the nodes. -/
theorem ReadUpTo.subset (h : f.ReadUpTo declared nodes read) : read ⊆ nodes := by
  rcases h with ⟨n, x, late, hstops⟩ | ⟨-, rfl⟩
  · rw [hstops.split]
    exact List.subset_append_left read (n :: late)
  · exact List.Subset.refl read

/-- The record of a reconciliation of what some nodes give. -/
theorem ReadUpTo.log_settle {m : Matcher} (hm : m.TakesItems) (hmatched : m.matched = 0)
    (h : f.ReadUpTo m.pending nodes read) :
    (m.settle (f.findsIn nodes)).log =
      (f.findsIn read).filterMap Find.event? ++
        closing (m.settle (f.findsIn nodes)).value m.pending.length := by
  rcases h with ⟨n, x, late, hstops⟩ | ⟨hclean, rfl⟩
  · rw [hstops.findsIn_eq,
      Matcher.settle_of_stop hm (f.items_findsIn read) hstops.clean hstops.offends, closing,
      List.append_nil]
  · exact Matcher.log_settle_of_clean hm hmatched (f.items_findsIn read) hclean

/-! ## The record of a check, by nodes -/

/-- The record of a header with a body. -/
theorem log_check_of_body (h : f.FirstBody before n after declared d)
    (hread : f.ReadUpTo declared (n :: after) read) (parse : Bytes → Node) (sourceName : String)
    (source? : Option Contents) :
    (f.check parse sourceName source?).log =
      f.skipsIn before ++ [.firstDefinition d declared.length] ++
        leftOut (Mode.ofNames f.name sourceName) f.name sourceName ++ f.skipsIn read ++
        closing (f.check parse sourceName source?).value declared.length := by
  have hbefore : (f.findsIn before).filterMap Find.event? = f.skipsIn before := by
    apply f.events_findsIn
    rw [h.split]
    exact List.subset_append_left before (n :: after)
  have hskips : (f.findsIn read).filterMap Find.event? = f.skipsIn read := by
    apply f.events_findsIn
    rw [h.split]
    exact List.subset_append_of_subset_right before hread.subset
  have hfinds := h.finds_eq
  rw [f.findsIn_cons_of_item? h.body] at hfinds
  have hprototypes := (f.items_findsIn before).trans h.prototypes
  have hsettle := ReadUpTo.log_settle (m := ⟨declared, .reconciling, 0⟩) (Or.inr rfl) rfl hread
  rw [f.findsIn_cons_of_item? h.body] at hsettle
  rw [check_of_body hfinds hprototypes]
  simp only [hsettle, hbefore, hskips, leftOut_ofNames, List.append_assoc, List.cons_append,
    List.nil_append]

/-- The record of a file on its own without a body. -/
theorem log_check_alone (h : f.items = declared.map .declaration) (parse : Bytes → Node)
    {sourceName : String} (hname : f.name = sourceName) (source? : Option Contents) :
    (f.check parse sourceName source?).log =
      f.skipsIn f.itemNodes ++
        closing (f.check parse sourceName source?).value declared.length := by
  rw [check_alone_of_prototypes h parse hname, events_finds, closing, List.append_nil]

/-- The record of a pair whose header has no body. -/
theorem log_check_pair (h : f.items = declared.map .declaration) {parse : Bytes → Node}
    {sourceName : String} (hname : f.name ≠ sourceName) {b : Bytes}
    (hsource : (parse b).errorNode? = none)
    (hread : (SourceFile.mk sourceName b (parse b)).ReadUpTo declared
      (SourceFile.mk sourceName b (parse b)).itemNodes read) :
    (f.check parse sourceName (some (.bytes b))).log =
      f.skipsIn f.itemNodes ++ [.parsed sourceName b.length] ++
        (SourceFile.mk sourceName b (parse b)).skipsIn read ++
        closing (f.check parse sourceName (some (.bytes b))).value declared.length := by
  have hskips := events_findsIn _ hread.subset
  have hsettle := ReadUpTo.log_settle (m := ⟨declared, .scanning, 0⟩) (Or.inl rfl) rfl hread
  rw [← finds_eq_findsIn] at hsettle
  rw [check_pair_of_prototypes h parse hname, parseSource,
    parseChecked_of_readable sourceName hsource]
  simp only [Logged.andThen, hsettle, hskips, events_finds, List.append_assoc, List.cons_append,
    List.nil_append]

/-! ## Checks that an item ends -/

/-- A header whose bodies an item ends is checked without what comes after that item. -/
theorem check_of_stop {before read late : List Find} {items : List Item}
    (hfinds : f.finds = before ++ (read ++ .item x :: late))
    (hbefore : before.filterMap Find.item? = declared.map .declaration)
    (hfirst : (read ++ [Find.item x]).head? = some (.item (.definition d)))
    (hitems : read.filterMap Find.item? = items) (hclean : Clean declared items)
    (hx : Offends declared items x) (parse : Bytes → Node) (sourceName : String)
    (source? : Option Contents) :
    f.check parse sourceName source? =
      ⟨before.filterMap Find.event? ++ .firstDefinition d declared.length ::
          (leftOut (Mode.ofNames f.name sourceName) f.name sourceName ++
            read.filterMap Find.event?),
        .error (.violation (offence declared[comparedCount items]? x))⟩ := by
  have hsettle := Matcher.settle_of_stop (m := ⟨declared, .reconciling, 0⟩) (Or.inr rfl) hitems
    hclean hx late
  -- the first body may be the item that offends
  obtain ⟨rest, hrest⟩ : ∃ rest, read ++ .item x :: late = .item (.definition d) :: rest := by
    cases read with
    | nil =>
      have hd : Find.item x = .item (.definition d) := by simpa using hfirst
      exact ⟨late, by rw [hd, List.nil_append]⟩
    | cons g read =>
      have hd : g = .item (.definition d) := by simpa using hfirst
      exact ⟨read ++ .item x :: late, by rw [hd, List.cons_append]⟩
  rw [hrest] at hfinds hsettle
  rw [check_of_body hfinds hbefore, hsettle, leftOut_ofNames]

/-- A source that an item ends is checked without what comes after that item. -/
theorem check_of_source_stop (h : f.items = declared.map .declaration) {parse : Bytes → Node}
    {sourceName : String} (hname : f.name ≠ sourceName) {b : Bytes}
    (hsource : (parse b).errorNode? = none) {read late : List Find} {items : List Item}
    (hfinds : (SourceFile.mk sourceName b (parse b)).finds = read ++ .item x :: late)
    (hitems : read.filterMap Find.item? = items) (hclean : Clean declared items)
    (hx : Offends declared items x) :
    f.check parse sourceName (some (.bytes b)) =
      ⟨f.finds.filterMap Find.event? ++ .parsed sourceName b.length :: read.filterMap Find.event?,
        .error (.violation (offence declared[comparedCount items]? x))⟩ := by
  have hsettle := Matcher.settle_of_stop (m := ⟨declared, .scanning, 0⟩) (Or.inl rfl) hitems
    hclean hx late
  rw [check_pair_of_prototypes h parse hname, parseSource,
    parseChecked_of_readable sourceName hsource]
  simp only [Logged.andThen, hfinds, hsettle, List.cons_append, List.nil_append]

/-! ## Trees that agree on what comes first -/

/-- The nodes of a tree that items are read from begin with nodes that give what `nodes` give, each
what the one at its place gives. -/
def BeginsAlike (f : SourceFile) (nodes : List Node) (t : Node) : Prop :=
  ∃ begun late, (f.withTree t).itemNodes = begun ++ late ∧
    begun.map (f.findAt f.location) = nodes.map (f.findAt f.location)

theorem BeginsAlike.finds_eq {t : Node} (h : f.BeginsAlike nodes t) :
    ∃ late, (f.withTree t).finds = f.findsIn nodes ++ late := by
  obtain ⟨begun, late, hnodes, hbegun⟩ := h
  have hfinds : ∀ ns : List Node, f.findsIn ns = (ns.map (f.findAt f.location)).filterMap id := by
    intro ns
    rw [List.filterMap_map]
    rfl
  refine ⟨(f.withTree t).findsIn late, ?_⟩
  rw [finds_eq_findsIn, hnodes, findsIn_append]
  show f.findsIn begun ++ _ = _
  rw [hfinds begun, hbegun, ← hfinds]

/-- What comes first, up to the item that ends a check, begins with the first body. -/
theorem FirstBody.head?_of_stopsAt {m : Node} (h : f.FirstBody before n after declared d)
    (hstops : f.StopsAt declared (n :: after) read m x late) :
    (f.findsIn read ++ [Find.item x]).head? = some (.item (.definition d)) := by
  have hsplit := hstops.split
  cases read with
  | nil =>
    obtain ⟨rfl, -⟩ := List.cons.inj hsplit
    have hx := h.body.symm.trans hstops.item
    rw [← Option.some.inj hx]
    rfl
  | cons k read =>
    obtain ⟨rfl, -⟩ := List.cons.inj hsplit
    rw [f.findsIn_cons_of_item? h.body]
    rfl

/-- Nothing of a header is noticed but what comes up to the item that ends its check. -/
theorem check_of_beginsAlike {m t : Node} (h : f.FirstBody before n after declared d)
    (hstops : f.StopsAt declared (n :: after) read m x late)
    (halike : f.BeginsAlike (before ++ read ++ [m]) t) (parse parse' : Bytes → Node)
    (sourceName : String) (source? : Option Contents) :
    (f.withTree t).check parse' sourceName source? = f.check parse sourceName source? := by
  have hprototypes := (f.items_findsIn before).trans h.prototypes
  have hfirst := h.head?_of_stopsAt hstops
  have hfinds := h.finds_eq
  rw [hstops.findsIn_eq] at hfinds
  obtain ⟨late', hfinds'⟩ := halike.finds_eq
  rw [findsIn_append, findsIn_append, f.findsIn_cons_of_item? hstops.item, List.append_assoc,
    List.append_assoc] at hfinds'
  rw [check_of_stop hfinds hprototypes hfirst (f.items_findsIn read) hstops.clean hstops.offends,
    check_of_stop hfinds' hprototypes hfirst (f.items_findsIn read) hstops.clean hstops.offends]
  rfl

/-- Nothing of a source is noticed but what comes up to the item that ends its check. -/
theorem check_of_source_beginsAlike (h : f.items = declared.map .declaration)
    {f' : SourceFile} (hfile : f'.name = f.name) (hfinds : f'.finds = f.finds)
    {parse parse' : Bytes → Node} {sourceName : String} (hname : f.name ≠ sourceName) {b : Bytes}
    (hsource : (parse b).errorNode? = none) (hsource' : (parse' b).errorNode? = none)
    (hstops : (SourceFile.mk sourceName b (parse b)).StopsAt declared
      (SourceFile.mk sourceName b (parse b)).itemNodes read n x late)
    (halike : (SourceFile.mk sourceName b (parse b)).BeginsAlike (read ++ [n]) (parse' b)) :
    f'.check parse' sourceName (some (.bytes b)) =
      f.check parse sourceName (some (.bytes b)) := by
  have hread := (SourceFile.mk sourceName b (parse b)).items_findsIn read
  have hsplit := hstops.findsIn_eq
  rw [← finds_eq_findsIn] at hsplit
  obtain ⟨late', hsplit'⟩ := halike.finds_eq
  rw [findsIn_append, findsIn_cons_of_item? _ hstops.item, List.append_assoc] at hsplit'
  have hitems : f'.items = declared.map .declaration := by
    rw [items, hfinds]
    exact h
  rw [check_of_source_stop h hname hsource hsplit hread hstops.clean hstops.offends,
    check_of_source_stop hitems (hfile ▸ hname) hsource' hsplit' hread hstops.clean hstops.offends,
    hfinds]

end SourceFile

/-! ## The whole check -/

/-- **The record of a check.**  A check of a header that can be read records the check and the
header, and then as follows.

If the header has a body, the record has the bodies without a name before the first body, the first
body with the number of prototypes before it, a warning if a source is left out, and the bodies
without a name from there to the first item that offends.

If the header has no body, the record has all bodies without a name of the header.  If a source is
given and can be read, then come the source and the bodies without a name in it up to its first item
that offends.

The last record is the number of functions, if the check succeeds.

So nothing that comes after an item that offends is noticed: any other tree that begins alike, up to
and including that item, has the same outcome and the same record. -/
theorem record_exact (parse : Bytes → Node) (headerName : String) (header : Bytes)
    (sourceName? : Option String) (source? : Option Contents)
    (hheader : (parse header).errorNode? = none) :
    let f : SourceFile := ⟨headerName, header, parse header⟩
    let sourceName := sourceName?.getD headerName
    let mode := Mode.ofNames headerName sourceName
    let verdict := validate parse headerName (.bytes header) sourceName? source?
    let opening : List Event := [.checking headerName mode, .parsed headerName header.length]
    ((∃ i ∈ f.items, i.isDefinition = true) →
      ∃ before n after declared d read, f.FirstBody before n after declared d ∧
        f.ReadUpTo declared (n :: after) read ∧
        verdict.log = opening ++ f.skipsIn before ++ [.firstDefinition d declared.length] ++
          leftOut mode headerName sourceName ++ f.skipsIn read ++
          closing verdict.value declared.length) ∧
    ((∀ i ∈ f.items, i.isDefinition = false) →
      ∃ declared : List Declaration, f.items = declared.map .declaration ∧
        (mode = .headerOnly → verdict.log = opening ++ f.skipsIn f.itemNodes ++
          closing verdict.value declared.length) ∧
        ∀ b, mode = .split → source? = some (.bytes b) → (parse b).errorNode? = none →
          let g : SourceFile := ⟨sourceName, b, parse b⟩
          ∃ read, g.ReadUpTo declared g.itemNodes read ∧
            verdict.log = opening ++ f.skipsIn f.itemNodes ++ [.parsed sourceName b.length] ++
              g.skipsIn read ++ closing verdict.value declared.length) ∧
    ∀ parse' : Bytes → Node, (parse' header).errorNode? = none →
      (∀ before n after declared d read m x late, f.FirstBody before n after declared d →
        f.StopsAt declared (n :: after) read m x late →
        f.BeginsAlike (before ++ read ++ [m]) (parse' header) →
        validate parse' headerName (.bytes header) sourceName? source? = verdict) ∧
      ∀ declared b read n x late, f.items = declared.map .declaration →
        (f.withTree (parse' header)).finds = f.finds → mode = .split → source? = some (.bytes b) →
        (parse b).errorNode? = none → (parse' b).errorNode? = none →
        let g : SourceFile := ⟨sourceName, b, parse b⟩
        g.StopsAt declared g.itemNodes read n x late → g.BeginsAlike (read ++ [n]) (parse' b) →
        validate parse' headerName (.bytes header) sourceName? source? = verdict := by
  intro f sourceName mode verdict opening
  have hverdict : verdict = ⟨opening ++ (f.check parse sourceName source?).log,
      (f.check parse sourceName source?).value⟩ := validate_of_readable hheader _ _ _
  have hsplit : mode = .split → f.name ≠ sourceName := (Mode.ofNames_eq_split_iff _ _).1
  refine ⟨?_, ?_, ?_⟩
  · intro hbody
    obtain ⟨before, n, after, declared, d, hfirst⟩ := SourceFile.exists_firstBody hbody
    obtain ⟨read, hread⟩ := f.exists_readUpTo declared (n :: after)
    refine ⟨before, n, after, declared, d, read, hfirst, hread, ?_⟩
    rw [hverdict]
    show opening ++ _ = _
    rw [SourceFile.log_check_of_body hfirst hread parse sourceName source?]
    simp only [List.append_assoc]
    rfl
  · intro hnobody
    obtain ⟨declared, hitems⟩ := (prototypes_iff f.items).2 hnobody
    refine ⟨declared, hitems, ?_, ?_⟩
    · intro hmode
      have hname : f.name = sourceName := (Mode.ofNames_eq_headerOnly_iff _ _).1 hmode
      rw [hverdict]
      show opening ++ _ = _
      rw [SourceFile.log_check_alone hitems parse hname source?, List.append_assoc]
    · rintro b hmode rfl hsource g
      obtain ⟨read, hread⟩ := g.exists_readUpTo declared g.itemNodes
      refine ⟨read, hread, ?_⟩
      rw [hverdict]
      show opening ++ _ = _
      rw [SourceFile.log_check_pair hitems (hsplit hmode) hsource hread]
      simp only [List.append_assoc]
      rfl
  · intro parse' hheader'
    have hverdict' : validate parse' headerName (.bytes header) sourceName? source? =
        ⟨opening ++ ((f.withTree (parse' header)).check parse' sourceName source?).log,
          ((f.withTree (parse' header)).check parse' sourceName source?).value⟩ :=
      validate_of_readable hheader' _ _ _
    constructor
    · intro before n after declared d read m x late hfirst hstops halike
      rw [hverdict', hverdict, SourceFile.check_of_beginsAlike hfirst hstops halike parse parse']
    · rintro declared b read n x late hitems hfinds hmode rfl hsource hsource' g hstops halike
      have hname : (f.withTree (parse' header)).name = f.name := rfl
      rw [hverdict', hverdict, SourceFile.check_of_source_beginsAlike hitems hname hfinds
        (hsplit hmode) hsource hsource' hstops halike]

/-- A header with a body that has no name, the prototype `a` and the body `b`, which offends.  The
body without a name that comes last is not recorded, and may as well be missing. -/
theorem record_exact_stops :
    let header := Utf8.encode "a x\x7b\x7dint a();int b()\x7b\x7dc y\x7b\x7d"
    let node (kind : String) (start stop : Nat) (field : Option String) : List Node → Node :=
      .mk ⟨kind, start, stop, Point.ofOffset header start, field, false, false, false⟩
    let named (kind : String) (start stop name : Nat) : Node :=
      node kind start stop none [node "function_declarator" name (name + 3) (some "declarator")
        [node "identifier" name (name + 1) (some "declarator") []]]
    let nameless (start stop : Nat) : Node := node "function_definition" start stop none []
    let tree (late : List Node) : Node :=
      node "translation_unit" 0 27 none ([nameless 0 5, named "declaration" 5 13 9,
        named "function_definition" 13 22 17] ++ late)
    let check (late : List Node) := validate (fun _ => tree late) "f.h" (.bytes header) none none
    (check [nameless 22 27]).log.map Event.message =
        ["Checking f.h (header-only mode)", "Parsed f.h (27 bytes)",
          "Skipping definition without identifier in f.h at row 0",
          "First definition 'b' at f.h:1:18; 1 declaration(s) pending"] ∧
      check [] = check [nameless 22 27] := by
  intro header node named nameless tree check
  constructor
  · decide +kernel
  · let f : SourceFile := ⟨"f.h", header, tree [nameless 22 27]⟩
    let body := named "function_definition" 13 22 17
    let place (start : Nat) : Location := f.location (node "identifier" start (start + 1) none [])
    let p : Declaration := ⟨"a", place 9, some (place 5)⟩
    let d : Definition := ⟨"b", place 17, false⟩
    have hbody : f.item? body = some (.definition d) := by decide +kernel
    have hfirst :
        f.FirstBody [nameless 0 5, named "declaration" 5 13 9] body [nameless 22 27] [p] d :=
      ⟨rfl, by decide +kernel, hbody⟩
    have hstops : f.StopsAt [p] [body, nameless 22 27] [] body (.definition d) [nameless 22 27] :=
      ⟨rfl, hbody, by decide +kernel, by decide +kernel⟩
    have hlazy := (record_exact (fun _ => tree [nameless 22 27]) "f.h" header none none rfl).2.2
      (fun _ => tree []) rfl
    apply hlazy.1 _ _ _ _ _ _ _ _ _ hfirst hstops
    exact ⟨_, [], rfl, rfl⟩

end PrototypeOrder
