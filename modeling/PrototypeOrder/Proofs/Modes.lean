/-
# One file or two

A file on its own and a header with a source are checked alike as long as prototypes come
before bodies.  Only the shape of an item matters for what comes of it: whether it is a
prototype or a body, its name, and whether it is exempt.

* `Matcher.outcome_agree` : items of the same shapes come to the same end, and the places
  that are reported are those of items with the same indices.

So cutting a file in two before its first body changes nothing, and neither does joining a
header that is accepted with its source, unless both are without items.
-/
import PrototypeOrder.C.Outline
import PrototypeOrder.Proofs.Soundness

namespace PrototypeOrder

/-! ## Shapes -/

/-- What matters of an item when it is compared. -/
structure Shape where
  isDefinition : Bool
  name : String
  isExempt : Bool
deriving DecidableEq, Repr

namespace Item

/-- The shape of an item; nothing is exempt but a body. -/
def shape : Item → Shape
  | declaration d => ⟨false, d.name, false⟩
  | definition d => ⟨true, d.name, d.isExempt⟩

theorem isDefinition_shape (i : Item) : i.shape.isDefinition = i.isDefinition := by
  cases i <;> rfl

theorem name_shape (i : Item) : i.shape.name = i.name := by
  cases i <;> rfl

theorem isCompared_shape (i : Item) :
    (i.shape.isDefinition && !i.shape.isExempt) = i.isCompared := by
  cases i <;> rfl

end Item

/-- Items of the same shapes have the same bodies compared. -/
theorem comparedNames_of_shapes {items items' : List Item}
    (h : items.map Item.shape = items'.map Item.shape) :
    comparedNames items = comparedNames items' := by
  have hnames : ∀ l : List Item, comparedNames l =
      ((l.map Item.shape).filter fun s => s.isDefinition && !s.isExempt).map Shape.name := by
    intro l
    rw [List.filter_map, List.map_map, comparedNames]
    have hfilter : (fun s : Shape => s.isDefinition && !s.isExempt) ∘ Item.shape =
        Item.isCompared := funext Item.isCompared_shape
    have hname : Shape.name ∘ Item.shape = Item.name := funext Item.name_shape
    rw [hfilter, hname]
  rw [hnames, hnames, h]

theorem comparedCount_of_shapes {items items' : List Item}
    (h : items.map Item.shape = items'.map Item.shape) :
    comparedCount items = comparedCount items' := by
  rw [← length_comparedNames, ← length_comparedNames, comparedNames_of_shapes h]

theorem forall_isDefinition_of_shapes {items items' : List Item} (value : Bool)
    (h : items.map Item.shape = items'.map Item.shape) :
    (∀ i ∈ items, i.isDefinition = value) ↔ ∀ i ∈ items', i.isDefinition = value := by
  have hshapes : ∀ l : List Item, (∀ i ∈ l, i.isDefinition = value) ↔
      ∀ s ∈ l.map Item.shape, s.isDefinition = value := by
    intro l
    simp only [List.forall_mem_map, Item.isDefinition_shape]
  rw [hshapes, hshapes, h]

/-- Prototypes of the same shapes have the same names. -/
theorem names_of_shapes {declared declared' : List Declaration}
    (h : (declared.map Item.declaration).map Item.shape =
      (declared'.map Item.declaration).map Item.shape) :
    declared.map Declaration.name = declared'.map Declaration.name := by
  have hnames : ∀ l : List Declaration, l.map Declaration.name =
      ((l.map Item.declaration).map Item.shape).map Shape.name := by
    intro l
    rw [List.map_map, List.map_map]
    rfl
  rw [hnames, hnames, h]

/-- Items of the same shapes answer the same names. -/
theorem answers_of_shapes {declared declared' : List Declaration} {items items' : List Item}
    (hnames : declared.map Declaration.name = declared'.map Declaration.name)
    (h : items.map Item.shape = items'.map Item.shape) :
    Answers declared items ↔ Answers declared' items' := by
  rw [Answers, Answers, forall_isDefinition_of_shapes true h, comparedNames_of_shapes h, hnames]

theorem clean_of_shapes {declared declared' : List Declaration} {items items' : List Item}
    (hnames : declared.map Declaration.name = declared'.map Declaration.name)
    (h : items.map Item.shape = items'.map Item.shape) :
    Clean declared items ↔ Clean declared' items' := by
  rw [clean_iff, clean_iff, forall_isDefinition_of_shapes true h, comparedNames_of_shapes h,
    hnames]

/-- Whether an item offends depends on shapes only. -/
theorem offends_of_shapes {declared declared' : List Declaration} {before before' : List Item}
    {x x' : Item} (hnames : declared.map Declaration.name = declared'.map Declaration.name)
    (hbefore : before.map Item.shape = before'.map Item.shape) (hx : x.shape = x'.shape) :
    Offends declared before x ↔ Offends declared' before' x' := by
  cases x with
  | declaration d =>
    cases x' with
    | declaration d' => exact Iff.rfl
    | definition d' => simp [Item.shape] at hx
  | definition d =>
    cases x' with
    | declaration d' => simp [Item.shape] at hx
    | definition d' =>
      simp only [Item.shape, Shape.mk.injEq, true_and] at hx
      rw [offends_definition_iff, offends_definition_iff, comparedCount_of_shapes hbefore,
        hnames, hx.1, hx.2]

/-- The first item that offends is at the same place among items of the same shapes. -/
theorem FirstOffence.of_shapes {declared declared' : List Declaration}
    {items items' before : List Item} {x : Item} {after : List Item}
    (hnames : declared.map Declaration.name = declared'.map Declaration.name)
    (h : items.map Item.shape = items'.map Item.shape)
    (hfirst : FirstOffence declared items before x after) :
    ∃ before' x' after', FirstOffence declared' items' before' x' after' ∧
      before.map Item.shape = before'.map Item.shape ∧ x.shape = x'.shape := by
  have hsplit : items'.map Item.shape =
      before.map Item.shape ++ x.shape :: after.map Item.shape := by
    rw [← h, hfirst.split, List.map_append, List.map_cons]
  obtain ⟨before', later, rfl, hbefore, hlater⟩ := List.map_eq_append_iff.1 hsplit
  obtain ⟨x', after', rfl, hx, -⟩ := List.map_eq_cons_iff.1 hlater
  refine ⟨before', x', after', ⟨rfl, ?_, ?_⟩, hbefore.symm, hx.symm⟩
  · exact (offends_of_shapes hnames hbefore.symm hx.symm).1 hfirst.offends
  · exact (clean_of_shapes hnames hbefore.symm).1 hfirst.clean

/-! ## Ends that agree -/

/-- Where an item is shown for a fault: an unexpected prototype where it begins, anything
else at its name. -/
def Item.shownFor (fault : Fault) : Item → Location
  | declaration d => if fault = .unexpectedDeclaration then d.blame else d.location
  | definition d => d.location

/-- A violation is a fault that is shown at the items with given indices, in order. -/
def Violation.ShownAt (items : List Item) (fault : Fault) (indices : List Nat)
    (v : Violation) : Prop :=
  ∃ locations, v = .located fault locations ∧
    locations.map some = indices.map fun k => items[k]?.map (Item.shownFor fault)

/-- Two checks end alike: both succeed, or both report the same fault at items with the
same indices. -/
def EndAlike (items items' : List Item) (r r' : Except Failure Unit) : Prop :=
  (r = .ok () ∧ r' = .ok ()) ∨
    ∃ fault indices v v', r = .error (.violation v) ∧ r' = .error (.violation v') ∧
      v.ShownAt items fault indices ∧ v'.ShownAt items' fault indices

/-- The prototypes have the first indices. -/
theorem getElem?_prototype {declared : List Declaration} {k : Nat} {p : Declaration}
    (h : declared[k]? = some p) (items : List Item) :
    (declared.map Item.declaration ++ items)[k]? = some (.declaration p) := by
  have hlt : k < (declared.map Item.declaration).length := by
    rw [List.length_map]
    exact (List.getElem?_eq_some_iff.1 h).1
  rw [List.getElem?_append_left hlt, List.getElem?_map, h]
  rfl

/-- The index of an item that comes after the prototypes and the items `before`. -/
theorem getElem?_item (declared : List Declaration) (before : List Item) (x : Item)
    (after : List Item) :
    (declared.map Item.declaration ++ (before ++ x :: after))[declared.length + before.length]? =
      some x := by
  rw [List.getElem?_append_right (by simp), List.length_map, Nat.add_sub_cancel_left,
    List.getElem?_append_right (Nat.le_refl _), Nat.sub_self]
  rfl

/-- Of prototypes with the same names, both have one at an index or neither has. -/
theorem getElem?_of_names {declared declared' : List Declaration}
    (hnames : declared.map Declaration.name = declared'.map Declaration.name) (k : Nat) :
    (declared[k]? = none ∧ declared'[k]? = none) ∨
      ∃ p p', declared[k]? = some p ∧ declared'[k]? = some p' := by
  have hlength := congrArg List.length hnames
  rw [List.length_map, List.length_map] at hlength
  by_cases hk : k < declared.length
  · exact Or.inr ⟨_, _, List.getElem?_eq_getElem hk, List.getElem?_eq_getElem (hlength ▸ hk)⟩
  · exact Or.inl ⟨List.getElem?_eq_none (by omega), List.getElem?_eq_none (by omega)⟩

namespace Matcher

/-- Two first items that offend, of the same shape and at the same index, are reported
alike. -/
theorem offence_agree {declared declared' : List Declaration} {before before' : List Item}
    {x x' : Item} (hnames : declared.map Declaration.name = declared'.map Declaration.name)
    (hbefore : before.map Item.shape = before'.map Item.shape) (hx : x.shape = x'.shape)
    (after after' : List Item) :
    EndAlike (declared.map .declaration ++ (before ++ x :: after))
      (declared'.map .declaration ++ (before' ++ x' :: after'))
      (.error (.violation (offence declared[comparedCount before]? x)))
      (.error (.violation (offence declared'[comparedCount before']? x'))) := by
  have hindex' := getElem?_item declared' before' x' after'
  have hlength : declared'.length + before'.length = declared.length + before.length := by
    have hlen := congrArg List.length hnames
    have hlen' := congrArg List.length hbefore
    simp only [List.length_map] at hlen hlen'
    omega
  rw [hlength] at hindex'
  rw [← comparedCount_of_shapes hbefore]
  -- items of the same shape are of the same kind, so the mixed cases do not occur
  cases x with
  | declaration d =>
    cases x' with
    | definition d' => simp [Item.shape] at hx
    | declaration d' =>
      refine Or.inr ⟨.unexpectedDeclaration, [declared.length + before.length], _, _, rfl, rfl,
        ⟨_, rfl, ?_⟩, ⟨_, rfl, ?_⟩⟩
      · simp [Item.shownFor]
      · simp [hindex', Item.shownFor]
  | definition d =>
    cases x' with
    | declaration d' => simp [Item.shape] at hx
    | definition d' =>
      rcases getElem?_of_names hnames (comparedCount before) with ⟨hp, hp'⟩ | ⟨p, p', hp, hp'⟩
      · rw [hp, hp']
        refine Or.inr ⟨.undeclaredDefinition, [declared.length + before.length], _, _, rfl, rfl,
          ⟨_, rfl, ?_⟩, ⟨_, rfl, ?_⟩⟩
        · simp [Item.shownFor]
        · simp [hindex', Item.shownFor]
      · rw [hp, hp']
        refine Or.inr ⟨.outOfOrder, [comparedCount before, declared.length + before.length],
          _, _, rfl, rfl, ⟨_, rfl, ?_⟩, ⟨_, rfl, ?_⟩⟩
        · simp [getElem?_prototype hp, Item.shownFor]
        · simp [hindex', getElem?_prototype hp', Item.shownFor]

/-- A prototype that is left over is reported alike. -/
theorem leftover_agree {declared declared' : List Declaration} {k : Nat}
    (hnames : declared.map Declaration.name = declared'.map Declaration.name)
    (items items' : List Item) :
    EndAlike (declared.map .declaration ++ items) (declared'.map .declaration ++ items')
      (match declared[k]? with
        | some p => .error (.violation (.located .undefinedDeclaration [p.location]))
        | none => .ok ())
      (match declared'[k]? with
        | some p => .error (.violation (.located .undefinedDeclaration [p.location]))
        | none => .ok ()) := by
  rcases getElem?_of_names hnames k with ⟨hp, hp'⟩ | ⟨p, p', hp, hp'⟩
  · rw [hp, hp']
    exact Or.inl ⟨rfl, rfl⟩
  · rw [hp, hp']
    refine Or.inr ⟨.undefinedDeclaration, [k], _, _, rfl, rfl, ⟨_, rfl, ?_⟩, ⟨_, rfl, ?_⟩⟩
    · simp [getElem?_prototype hp, Item.shownFor]
    · simp [getElem?_prototype hp', Item.shownFor]

/-- **Only shapes matter.**  Prototypes of the same names and items of the same shapes come
to the same end, and what is reported is shown at items with the same indices. -/
theorem outcome_agree {declared declared' : List Declaration} {items items' : List Item}
    (hnames : declared.map Declaration.name = declared'.map Declaration.name)
    (h : items.map Item.shape = items'.map Item.shape) :
    EndAlike (declared.map .declaration ++ items) (declared'.map .declaration ++ items')
      (outcome declared items) (outcome declared' items') := by
  rcases clean_or_firstOffence declared items with hclean | ⟨before, x, after, hfirst⟩
  · have hclean' := (clean_of_shapes hnames h).1 hclean
    rw [outcome_of_clean hclean, outcome_of_clean hclean', ← comparedCount_of_shapes h]
    exact leftover_agree hnames items items'
  · obtain ⟨before', x', after', hfirst', hbefore, hx⟩ := hfirst.of_shapes hnames h
    rw [outcome_of_firstOffence hfirst, outcome_of_firstOffence hfirst', hfirst.split,
      hfirst'.split]
    exact offence_agree hnames hbefore hx after after'

end Matcher

/-! ## A file on its own and a pair -/

/-- Items with the shapes of prototypes are prototypes. -/
theorem prototypes_of_shapes {items : List Item} {declared : List Declaration}
    (h : items.map Item.shape = (declared.map Item.declaration).map Item.shape) :
    ∃ declared' : List Declaration, items = declared'.map .declaration ∧
      declared'.map Declaration.name = declared.map Declaration.name := by
  obtain ⟨declared', rfl⟩ := (prototypes_iff items).2
    ((forall_isDefinition_of_shapes false h).2 fun _ hi => isDefinition_of_mem_prototypes hi)
  exact ⟨declared', rfl, names_of_shapes h⟩

/-- Prototypes and items that answer them can be joined, unless there are no items: the run of
prototypes then ends at the first of the items. -/
theorem answers_join {declared : List Declaration} {items joined : List Item}
    (hanswers : Answers declared items) (hitems : items ≠ [])
    (h : joined.map Item.shape = (declared.map Item.declaration ++ items).map Item.shape) :
    ∃ (declared' : List Declaration) (d : Definition) (rest : List Item),
      joined = declared'.map .declaration ++ .definition d :: rest ∧
        Answers declared' (.definition d :: rest) := by
  rw [List.map_append] at h
  obtain ⟨run, bodies, rfl, hrun, hbodies⟩ := List.map_eq_append_iff.1 h
  obtain ⟨declared', rfl, hnames⟩ := prototypes_of_shapes hrun
  have hanswers' : Answers declared' bodies := (answers_of_shapes hnames hbodies).2 hanswers
  cases bodies with
  | nil =>
    have hnil : items = [] := by simpa using hbodies.symm
    exact absurd hnil hitems
  | cons i rest =>
    cases i with
    | declaration p =>
      have hp := hanswers'.1 (.declaration p) (by simp)
      exact absurd hp (by simp [Item.isDefinition])
    | definition d => exact ⟨declared', d, rest, rfl, hanswers'⟩

/-- Nothing answers prototypes but if there are none. -/
theorem answers_nil_iff (declared : List Declaration) : Answers declared [] ↔ declared = [] := by
  constructor
  · intro h
    exact List.map_eq_nil_iff.1 h.2.symm
  · rintro rfl
    exact ⟨by simp, rfl⟩

/-- **One file or two.**  The file `sole` is checked on its own, and the header and the
source, which have different names, as a pair; all three can be read.

* If the header has the shapes of the leading run of prototypes of `sole`, and the source
  those of the rest, both checks end alike.
* If the header has no body, the source has an item, and `sole` has the shapes of both, then
  `sole` is accepted when the pair is.
* A header and a source without items are accepted, and a file on its own without items is
  not.  This is the only exception to the second point. -/
theorem alone_agrees_with_pair (parse : Bytes → Node) (soleName headerName sourceName : String)
    (sole header source : Bytes) (sameName? : Option String) (unused? : Option Contents)
    (hsame : sameName?.getD soleName = soleName) (hnames : headerName ≠ sourceName)
    (hsole : (parse sole).errorNode? = none) (hheader : (parse header).errorNode? = none)
    (hsource : (parse source).errorNode? = none) :
    let alone := (validate parse soleName (.bytes sole) sameName? unused?).value
    let pair :=
      (validate parse headerName (.bytes header) (some sourceName) (some (.bytes source))).value
    let items := itemsOf parse soleName sole
    let headerItems := itemsOf parse headerName header
    let sourceItems := itemsOf parse sourceName source
    (∀ (declared : List Declaration) (d : Definition) (rest : List Item),
      items = declared.map .declaration ++ .definition d :: rest →
      headerItems.map Item.shape = (declared.map .declaration).map Item.shape →
      sourceItems.map Item.shape = (.definition d :: rest).map Item.shape →
      EndAlike items (headerItems ++ sourceItems) alone pair) ∧
    ((∀ i ∈ headerItems, i.isDefinition = false) → sourceItems ≠ [] → pair = .ok () →
      items.map Item.shape = (headerItems ++ sourceItems).map Item.shape → alone = .ok ()) ∧
    (headerItems = [] → sourceItems = [] → pair = .ok ()) ∧
    (items = [] → alone = .error (.violation (.emptyFile soleName))) ∧
    ((∀ i ∈ headerItems, i.isDefinition = false) → pair = .ok () →
      items.map Item.shape = (headerItems ++ sourceItems).map Item.shape → alone ≠ .ok () →
      headerItems = [] ∧ sourceItems = []) := by
  intro alone pair items headerItems sourceItems
  have hpair : ∀ declared : List Declaration, headerItems = declared.map .declaration →
      pair = Matcher.outcome declared sourceItems := fun declared hitems =>
    validate_value_of_source hheader hsource hnames hitems
  have hjoin : (∀ i ∈ headerItems, i.isDefinition = false) → sourceItems ≠ [] →
      pair = .ok () →
      items.map Item.shape = (headerItems ++ sourceItems).map Item.shape → alone = .ok () := by
    intro hpure hne hok hshapes
    obtain ⟨declared, hitems⟩ := (prototypes_iff headerItems).2 hpure
    rw [hpair declared hitems, Matcher.outcome_eq_ok_iff] at hok
    rw [hitems] at hshapes
    obtain ⟨declared', d, rest, hjoined, hanswers⟩ := answers_join hok hne hshapes
    rw [← Matcher.outcome_eq_ok_iff] at hanswers
    exact (validate_value_of_body hsole hjoined _ _).trans hanswers
  refine ⟨?_, hjoin, ?_, ?_, ?_⟩
  · intro declared d rest hitems hheaderShapes hsourceShapes
    obtain ⟨declared', hitems', hdeclared⟩ := prototypes_of_shapes hheaderShapes
    rw [hpair declared' hitems', hitems, hitems',
      show alone = _ from validate_value_of_body hsole hitems _ _]
    exact Matcher.outcome_agree hdeclared.symm hsourceShapes.symm
  · intro hheaderNil hsourceNil
    rw [hpair [] hheaderNil, hsourceNil]
    exact (Matcher.outcome_eq_ok_iff [] []).2 ((answers_nil_iff []).2 rfl)
  · intro hnil
    have hnil' : items = [].map Item.declaration := hnil
    exact validate_value_alone hsole hnil' hsame _
  · intro hpure hok hshapes hrefused
    have hsourceNil : sourceItems = [] :=
      Decidable.byContradiction fun hne => hrefused (hjoin hpure hne hok hshapes)
    obtain ⟨declared, hitems⟩ := (prototypes_iff headerItems).2 hpure
    rw [hpair declared hitems, hsourceNil, Matcher.outcome_eq_ok_iff, answers_nil_iff] at hok
    refine ⟨?_, hsourceNil⟩
    rw [hitems, hok, List.map_nil]

/-- A prototype `a` and a body `b`, in one file and in two: both checks report that they are
not in order.  A prototype `a` and a body `a` are accepted as a pair, and so in one file. -/
theorem alone_agrees_with_pair_cut :
    let check (header : String) (source? : Option String) : Except Failure Unit :=
      (validate C.parse "f.h" (.bytes (Utf8.encode header)) (source?.map fun _ => "f.c")
        (source?.map fun source => .bytes (Utf8.encode source))).value
    let items (name text : String) : List Item := itemsOf C.parse name (Utf8.encode text)
    EndAlike (items "f.h" "int a();int b()\x7b\x7d")
        (items "f.h" "int a();" ++ items "f.c" "int b()\x7b\x7d")
        (check "int a();int b()\x7b\x7d" none) (check "int a();" (some "int b()\x7b\x7d")) ∧
      check "int a();" (some "int a()\x7b\x7d") = .ok () ∧
      check "int a();int a()\x7b\x7d" none = .ok () := by
  intro check items
  let place (column : Int) : Location := ⟨0, column, "f.h", "int a();int b()\x7b\x7d"⟩
  let a : Declaration := ⟨"a", place 4, some (place 0)⟩
  let b : Definition := ⟨"b", place 12, false⟩
  -- all that has to be computed, at once
  have facts :
      (∀ text ∈ ["int a();", "int a()\x7b\x7d", "int b()\x7b\x7d", "int a();int a()\x7b\x7d",
        "int a();int b()\x7b\x7d"], (C.parse (Utf8.encode text)).errorNode?.isNone) ∧
      items "f.h" "int a();int b()\x7b\x7d" = [.declaration a, .definition b] ∧
      (items "f.h" "int a();").map Item.shape = [Item.shape (.declaration a)] ∧
      (items "f.c" "int b()\x7b\x7d").map Item.shape = [Item.shape (.definition b)] ∧
      (∀ i ∈ items "f.h" "int a();", i.isDefinition = false) ∧
      items "f.c" "int a()\x7b\x7d" ≠ [] ∧
      (check "int a();" (some "int a()\x7b\x7d")).toOption = some () ∧
      (items "f.h" "int a();int a()\x7b\x7d").map Item.shape =
        (items "f.h" "int a();" ++ items "f.c" "int a()\x7b\x7d").map Item.shape := by
    decide +kernel
  obtain ⟨hread, hsole, hheader, hsource, hpure, hne, hok, hshapes⟩ := facts
  simp only [List.forall_mem_cons, Option.isNone_iff_eq_none] at hread
  obtain ⟨hreadHeader, hreadA, hreadB, hreadSoleA, hreadSoleB, -⟩ := hread
  have hpair : check "int a();" (some "int a()\x7b\x7d") = .ok () := by
    cases h : check "int a();" (some "int a()\x7b\x7d") with
    | error e => simp [h, Except.toOption] at hok
    | ok u => rfl
  refine ⟨?_, hpair, ?_⟩
  · exact (alone_agrees_with_pair C.parse "f.h" "f.h" "f.c" _ _ _ none none rfl (by decide)
      hreadSoleB hreadHeader hreadB).1 [a] b [] hsole hheader hsource
  · exact (alone_agrees_with_pair C.parse "f.h" "f.h" "f.c" _ _ _ none none rfl (by decide)
      hreadSoleA hreadHeader hreadA).2.1 hpure hne hpair hshapes

end PrototypeOrder
