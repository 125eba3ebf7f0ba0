/-
# Where a scan ends

The items of a file are prototypes only, or a run of prototypes that a body ends.  A scan
queues the prototypes of the run and stops at that body; what it passes over on the way
leaves a record each.

* `prototypes_or_body` : the two forms of a list of items;
* `Matcher.scan_of_prototypes`, `Matcher.scan_of_body` : a scan of either form.
-/
import PrototypeOrder.Order.Matcher
import PrototypeOrder.Proofs.Offence

namespace PrototypeOrder

/-! ## The run of prototypes -/

/-- Items are prototypes only, or begin with a run of prototypes that a body ends. -/
theorem prototypes_or_body (items : List Item) :
    (∃ declared : List Declaration, items = declared.map .declaration) ∨
      ∃ (declared : List Declaration) (d : Definition) (rest : List Item),
        items = declared.map .declaration ++ .definition d :: rest := by
  induction items with
  | nil => exact Or.inl ⟨[], rfl⟩
  | cons i items ih =>
    cases i with
    | definition d => exact Or.inr ⟨[], d, items, rfl⟩
    | declaration p =>
      rcases ih with ⟨declared, rfl⟩ | ⟨declared, d, rest, rfl⟩
      · exact Or.inl ⟨p :: declared, rfl⟩
      · exact Or.inr ⟨p :: declared, d, rest, rfl⟩

/-- There is no body among prototypes. -/
theorem isDefinition_of_mem_prototypes {declared : List Declaration} {i : Item}
    (h : i ∈ declared.map Item.declaration) : i.isDefinition = false := by
  rw [List.mem_map] at h
  obtain ⟨p, -, rfl⟩ := h
  rfl

/-- Items that are prototypes only are those without a body. -/
theorem prototypes_iff (items : List Item) :
    (∃ declared : List Declaration, items = declared.map .declaration) ↔
      ∀ i ∈ items, i.isDefinition = false := by
  constructor
  · rintro ⟨declared, rfl⟩ i hi
    exact isDefinition_of_mem_prototypes hi
  · intro h
    rcases prototypes_or_body items with hp | ⟨declared, d, rest, rfl⟩
    · exact hp
    · have hd := h (.definition d) (by simp)
      exact absurd hd (by simp [Item.isDefinition])

/-- Items with a body are those that begin with a run of prototypes that a body ends. -/
theorem body_iff (items : List Item) :
    (∃ (declared : List Declaration) (d : Definition) (rest : List Item),
        items = declared.map .declaration ++ .definition d :: rest) ↔
      ∃ i ∈ items, i.isDefinition = true := by
  constructor
  · rintro ⟨declared, d, rest, rfl⟩
    exact ⟨.definition d, by simp, rfl⟩
  · rintro ⟨i, hi, hbody⟩
    rcases prototypes_or_body items with ⟨declared, rfl⟩ | hb
    · rw [isDefinition_of_mem_prototypes hi] at hbody
      exact absurd hbody Bool.false_ne_true
    · exact hb

theorem prototypes_inj {declared declared' : List Declaration}
    (h : declared.map Item.declaration = declared'.map .declaration) : declared = declared' :=
  (List.map_inj_right fun _ _ => Item.declaration.inj).1 h

/-- Items that are prototypes only have no body in them. -/
theorem prototypes_ne_body (declared declared' : List Declaration) (d : Definition)
    (rest : List Item) :
    declared.map Item.declaration ≠ declared'.map .declaration ++ .definition d :: rest := by
  intro h
  have hmem : Item.definition d ∈ declared.map Item.declaration := by simp [h]
  exact absurd (isDefinition_of_mem_prototypes hmem) (by simp [Item.isDefinition])

/-- The run of prototypes that a body ends is determined by the items. -/
theorem body_inj {declared declared' : List Declaration} {d d' : Definition}
    {rest rest' : List Item}
    (h : declared.map Item.declaration ++ .definition d :: rest =
      declared'.map .declaration ++ .definition d' :: rest') :
    declared = declared' ∧ d = d' ∧ rest = rest' := by
  induction declared generalizing declared' with
  | nil =>
    cases declared' with
    | nil => simpa using h
    | cons p' declared' => simp at h
  | cons p declared ih =>
    cases declared' with
    | nil => simp at h
    | cons p' declared' =>
      simp only [List.map_cons, List.cons_append, List.cons.injEq, Item.declaration.injEq] at h
      obtain ⟨hdeclared, hd, hrest⟩ := ih h.2
      exact ⟨by rw [h.1, hdeclared], hd, hrest⟩

/-- A body among the items of a reading is come across after the items before it. -/
theorem finds_split {finds : List Find} {declared : List Declaration} {d : Definition}
    {rest : List Item}
    (h : finds.filterMap Find.item? = declared.map .declaration ++ .definition d :: rest) :
    ∃ before after, finds = before ++ .item (.definition d) :: after ∧
      before.filterMap Find.item? = declared.map .declaration ∧
        after.filterMap Find.item? = rest := by
  obtain ⟨before, later, rfl, hbefore, hlater⟩ := List.filterMap_eq_append_iff.1 h
  obtain ⟨skipped, f, after, rfl, hskipped, hf, hafter⟩ := List.filterMap_eq_cons_iff.1 hlater
  refine ⟨before ++ skipped, after, ?_, ?_, hafter⟩
  · cases f with
    | nameless file row => simp [Find.item?] at hf
    | item i =>
      rw [Find.item?, Option.some.injEq] at hf
      rw [hf, List.append_assoc]
  · rw [List.filterMap_append, hbefore, List.filterMap_eq_nil_iff.2 hskipped, List.append_nil]

namespace Matcher

/-! ## The scan -/

/-- Prototypes that come first are queued, and what is passed over is recorded. -/
theorem scanFrom_append (m : Matcher) {before : List Find} {declared : List Declaration}
    (h : before.filterMap Find.item? = declared.map .declaration) (finds : List Find) :
    m.scanFrom (before ++ finds) =
      let r := scanFrom { m with pending := m.pending ++ declared } finds
      ⟨before.filterMap Find.event? ++ r.log, r.value⟩ := by
  induction before generalizing m declared with
  | nil =>
    have hnil : declared = [] := by simpa using h
    simp [hnil]
  | cons f before ih =>
    cases f with
    | nameless file row =>
      rw [List.cons_append, scanFrom, ih m h]
      rfl
    | item i =>
      cases declared with
      | nil => simp [Find.item?] at h
      | cons p declared =>
        have hcons : i :: before.filterMap Find.item? =
            .declaration p :: declared.map .declaration := h
        obtain ⟨rfl, hrest⟩ := List.cons.inj hcons
        rw [List.cons_append, scanFrom, ih _ hrest]
        simp only [List.append_assoc, List.cons_append, List.nil_append]
        rfl

theorem scan_fresh (finds : List Find) : fresh.scan finds = fresh.scanFrom finds := rfl

/-- A scan of prototypes only goes to the end. -/
theorem scan_of_prototypes {finds : List Find} {declared : List Declaration}
    (h : finds.filterMap Find.item? = declared.map .declaration) :
    fresh.scan finds =
      ⟨finds.filterMap Find.event?, ⟨⟨⟨declared, .scanning, 0⟩, none, []⟩, none⟩⟩ := by
  have hscan := scanFrom_append fresh h []
  rw [List.append_nil] at hscan
  rw [scan_fresh, hscan]
  simp [scanFrom, fresh, Logged.pure]

/-- A scan ends at the first body, with the prototypes before it in the queue. -/
theorem scan_of_body {before after : List Find} {declared : List Declaration}
    {d : Definition} (h : before.filterMap Find.item? = declared.map .declaration) :
    fresh.scan (before ++ .item (.definition d) :: after) =
      ⟨before.filterMap Find.event? ++ [.firstDefinition d declared.length],
        ⟨⟨⟨declared, .reconciling, 0⟩, none, after⟩, some d⟩⟩ := by
  rw [scan_fresh, scanFrom_append fresh h]
  simp [scanFrom, fresh, Logged.pure, Logged.after]

end Matcher

end PrototypeOrder
