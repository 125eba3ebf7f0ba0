/-
# Items that offend

Bodies are held against prototypes one after the other.  Exempt bodies do not take part;
the others are *compared*, each with the prototype whose turn it is.  An item offends where
it stands if it is a prototype, which has no place among the bodies, or if it is a
compared body and the prototype whose turn it is has another name or is not there.

Nothing here speaks of a matcher: whether an item offends is read off the items before it.

* `clean_iff` : no item offends exactly when all items are bodies and the names of the
  compared ones are those that the prototypes begin with;
* `answers_iff` : if moreover no prototype is left over, the names are the same;
* `clean_or_firstOffence` : otherwise there is a first item that offends.
-/
import PrototypeOrder.Source.Item

namespace PrototypeOrder

namespace Item

/-- Whether an item is a body. -/
def isDefinition : Item → Bool
  | declaration _ => false
  | definition _ => true

/-- Whether an item is a body that is compared with a prototype. -/
def isCompared : Item → Bool
  | declaration _ => false
  | definition d => !d.isExempt

end Item

/-- The number of compared bodies among some items. -/
def comparedCount (items : List Item) : Nat := items.countP Item.isCompared

/-- The names of the compared bodies among some items, in order. -/
def comparedNames (items : List Item) : List String :=
  (items.filter Item.isCompared).map Item.name

@[simp]
theorem comparedCount_nil : comparedCount [] = 0 := rfl

theorem comparedCount_append (xs ys : List Item) :
    comparedCount (xs ++ ys) = comparedCount xs + comparedCount ys :=
  List.countP_append

theorem comparedCount_cons (i : Item) (items : List Item) :
    comparedCount (i :: items) = comparedCount [i] + comparedCount items :=
  comparedCount_append [i] items

theorem comparedCount_exempt {d : Definition} (h : d.isExempt = true) :
    comparedCount [.definition d] = 0 := by
  simp [comparedCount, Item.isCompared, h]

theorem comparedCount_compared {d : Definition} (h : d.isExempt = false) :
    comparedCount [.definition d] = 1 := by
  simp [comparedCount, Item.isCompared, h]

theorem length_comparedNames (items : List Item) :
    (comparedNames items).length = comparedCount items := by
  rw [comparedNames, List.length_map, comparedCount, List.countP_eq_length_filter]

theorem comparedNames_exempt {d : Definition} (h : d.isExempt = true) (items : List Item) :
    comparedNames (.definition d :: items) = comparedNames items := by
  simp [comparedNames, Item.isCompared, h]

theorem comparedNames_compared {d : Definition} (h : d.isExempt = false) (items : List Item) :
    comparedNames (.definition d :: items) = d.name :: comparedNames items := by
  simp [comparedNames, Item.isCompared, Item.name, h]

/-! ## Offending items -/

/-- Whether an item that comes after the items `before` offends, where `declared` are the
prototypes: it is a prototype, or it is compared and there is no prototype left for it, or
the prototype whose turn it is has another name. -/
def Offends (declared : List Declaration) (before : List Item) : Item → Prop
  | .declaration _ => True
  | .definition d =>
    d.isExempt = false ∧
      (declared.length ≤ comparedCount before ∨
        ∃ p, declared[comparedCount before]? = some p ∧ p.name ≠ d.name)

/-- A body offends when it is compared and does not have the name of the prototype whose
turn it is. -/
theorem offends_definition_iff (declared : List Declaration) (before : List Item)
    (d : Definition) :
    Offends declared before (.definition d) ↔
      d.isExempt = false ∧
        (declared.map Declaration.name)[comparedCount before]? ≠ some d.name := by
  rw [Offends, List.getElem?_map]
  cases h : declared[comparedCount before]? with
  | none => simp [List.getElem?_eq_none_iff.1 h]
  | some p =>
    have hlt := (List.getElem?_eq_some_iff.1 h).1
    simp [Nat.not_le.2 hlt]

instance (declared : List Declaration) (before : List Item) :
    (x : Item) → Decidable (Offends declared before x)
  | .declaration _ => isTrue trivial
  | .definition d => decidable_of_iff _ (offends_definition_iff declared before d).symm

/-- None of the items offends. -/
def Clean (declared : List Declaration) (items : List Item) : Prop :=
  ∀ before x after, items = before ++ x :: after → ¬ Offends declared before x

/-- The item `x` between `before` and `after` is the first one that offends. -/
structure FirstOffence (declared : List Declaration) (items before : List Item) (x : Item)
    (after : List Item) : Prop where
  split : items = before ++ x :: after
  offends : Offends declared before x
  clean : Clean declared before

/-- The items that come first only decide how many prototypes are used up. -/
theorem offends_append (declared : List Declaration) (pre before : List Item) (x : Item) :
    Offends declared (pre ++ before) x ↔
      Offends (declared.drop (comparedCount pre)) before x := by
  cases x with
  | declaration d => exact Iff.rfl
  | definition d =>
    have hlen : declared.length ≤ comparedCount pre + comparedCount before ↔
        (declared.drop (comparedCount pre)).length ≤ comparedCount before := by
      rw [List.length_drop]
      omega
    simp only [Offends, comparedCount_append, List.getElem?_drop, hlen]

theorem offends_cons (declared : List Declaration) (i : Item) (before : List Item) (x : Item) :
    Offends declared (i :: before) x ↔
      Offends (declared.drop (comparedCount [i])) before x :=
  offends_append declared [i] before x

/-- A body that does not offend at the front is exempt or has the name of the first
prototype. -/
theorem not_offends_definition_iff (declared : List Declaration) (d : Definition) :
    ¬ Offends declared [] (.definition d) ↔
      d.isExempt = true ∨ ∃ p rest, declared = p :: rest ∧ p.name = d.name := by
  cases hd : d.isExempt with
  | true => simp [Offends, hd]
  | false =>
    cases declared with
    | nil => simp [Offends, hd]
    | cons p rest => simp [Offends, hd]

/-! ## Items none of which offends -/

theorem clean_nil (declared : List Declaration) : Clean declared [] := by
  intro before x after h
  simp at h

/-- Items are clean when the first one does not offend and the others are clean for the
prototypes that it leaves. -/
theorem clean_cons_iff (declared : List Declaration) (i : Item) (items : List Item) :
    Clean declared (i :: items) ↔
      ¬ Offends declared [] i ∧ Clean (declared.drop (comparedCount [i])) items := by
  constructor
  · intro h
    refine ⟨h [] i items rfl, ?_⟩
    intro before x after hsplit hx
    apply h (i :: before) x after
    · rw [hsplit, List.cons_append]
    · exact (offends_cons declared i before x).2 hx
  · rintro ⟨hi, hitems⟩ before x after hsplit hx
    cases before with
    | nil =>
      rw [List.nil_append, List.cons.injEq] at hsplit
      rw [← hsplit.1] at hx
      exact hi hx
    | cons j before =>
      rw [List.cons_append, List.cons.injEq] at hsplit
      rw [← hsplit.1, offends_cons] at hx
      exact hitems before x after hsplit.2 hx

/-- **Clean items.**  No item offends exactly when all items are bodies and the prototypes
begin with the names of the compared ones, in order. -/
theorem clean_iff (declared : List Declaration) (items : List Item) :
    Clean declared items ↔
      (∀ i ∈ items, i.isDefinition = true) ∧
        comparedNames items <+: declared.map Declaration.name := by
  induction items generalizing declared with
  | nil => simp [clean_nil, comparedNames]
  | cons i items ih =>
    rw [clean_cons_iff, ih, List.forall_mem_cons]
    cases i with
    | declaration d => simp [Offends, Item.isDefinition]
    | definition d =>
      rw [not_offends_definition_iff]
      cases hd : d.isExempt with
      | true => simp [comparedCount_exempt hd, comparedNames_exempt hd, Item.isDefinition]
      | false =>
        rw [comparedCount_compared hd, comparedNames_compared hd]
        cases declared with
        | nil => simp
        | cons p rest =>
          simp only [Bool.false_eq_true, false_or, List.drop_succ_cons, List.drop_zero,
            List.map_cons, List.cons_prefix_cons, Item.isDefinition, true_and]
          constructor
          · rintro ⟨⟨q, qs, hq, hname⟩, hbodies, hnames⟩
            obtain ⟨rfl, rfl⟩ := List.cons.inj hq
            exact ⟨hbodies, hname.symm, hnames⟩
          · rintro ⟨hbodies, hname, hnames⟩
            exact ⟨⟨p, rest, rfl, hname.symm⟩, hbodies, hnames⟩

instance (declared : List Declaration) (items : List Item) : Decidable (Clean declared items) :=
  decidable_of_iff _ (clean_iff declared items).symm

/-- Clean items do not compare more bodies than there are prototypes. -/
theorem Clean.comparedCount_le {declared : List Declaration} {items : List Item}
    (h : Clean declared items) : comparedCount items ≤ declared.length := by
  have hnames := ((clean_iff declared items).1 h).2.length_le
  rwa [length_comparedNames, List.length_map] at hnames

/-! ## Bodies that answer all prototypes -/

/-- Items answer prototypes if all of them are bodies and the compared ones have the names
of the prototypes, in order. -/
def Answers (declared : List Declaration) (items : List Item) : Prop :=
  (∀ i ∈ items, i.isDefinition = true) ∧
    comparedNames items = declared.map Declaration.name

/-- Items answer prototypes when they are clean and leave none of the prototypes over. -/
theorem answers_iff (declared : List Declaration) (items : List Item) :
    Answers declared items ↔
      Clean declared items ∧ declared.length ≤ comparedCount items := by
  rw [Answers, clean_iff, and_assoc]
  refine and_congr_right fun _ => ?_
  constructor
  · intro h
    rw [h, ← length_comparedNames, h, List.length_map]
    exact ⟨List.prefix_rfl, Nat.le_refl _⟩
  · rintro ⟨hbegins, hle⟩
    apply hbegins.eq_of_length_le
    rwa [List.length_map, length_comparedNames]

/-! ## The first item that offends -/

/-- An item in front that does not offend is passed over in the search. -/
theorem firstOffence_cons_iff {declared : List Declaration} {i : Item}
    (hi : ¬ Offends declared [] i) (items before : List Item) (x : Item) (after : List Item) :
    FirstOffence declared (i :: items) (i :: before) x after ↔
      FirstOffence (declared.drop (comparedCount [i])) items before x after := by
  constructor
  · rintro ⟨hsplit, hx, hclean⟩
    rw [List.cons_append, List.cons.injEq] at hsplit
    rw [offends_cons] at hx
    exact ⟨hsplit.2, hx, ((clean_cons_iff declared i before).1 hclean).2⟩
  · rintro ⟨hsplit, hx, hclean⟩
    refine ⟨by rw [hsplit, List.cons_append], ?_, ?_⟩
    · exact (offends_cons declared i before x).2 hx
    · exact (clean_cons_iff declared i before).2 ⟨hi, hclean⟩

/-- Items are clean or have a first one that offends. -/
theorem clean_or_firstOffence (declared : List Declaration) (items : List Item) :
    Clean declared items ∨ ∃ before x after, FirstOffence declared items before x after := by
  induction items generalizing declared with
  | nil => exact Or.inl (clean_nil declared)
  | cons i items ih =>
    by_cases hi : Offends declared [] i
    · exact Or.inr ⟨[], i, items, rfl, hi, clean_nil declared⟩
    · rcases ih (declared.drop (comparedCount [i])) with hclean | ⟨before, x, after, hfirst⟩
      · exact Or.inl ((clean_cons_iff declared i items).2 ⟨hi, hclean⟩)
      · exact Or.inr ⟨i :: before, x, after,
          (firstOffence_cons_iff hi items before x after).2 hfirst⟩

/-- An item that offends keeps the items from being clean. -/
theorem FirstOffence.not_clean {declared : List Declaration} {items before : List Item}
    {x : Item} {after : List Item} (h : FirstOffence declared items before x after) :
    ¬ Clean declared items :=
  fun hclean => hclean before x after h.split h.offends

end PrototypeOrder
