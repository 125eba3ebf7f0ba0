/-
# What a matcher reports

A matcher that takes items accepts them as long as they are clean for the prototypes that
wait, and reports the first one that offends.  So what it reports, and what it has consumed
by then, can be read off the items without following the queue.

* `Matcher.reconcile_of_clean`, `Matcher.reconcile_of_firstOffence` : the two ways in which
  a reconciliation can end;
* `Matcher.settle_of_clean`, `Matcher.settle_of_firstOffence` : the same with the finish;
* `Matcher.outcome_eq_ok_iff` : they succeed when the items answer the prototypes.

The last part puts a scan before them: what a fresh matcher reports, case by case.
-/
import PrototypeOrder.Order.Verdict
import PrototypeOrder.Proofs.Scan

namespace PrototypeOrder

/-- The violation that an offending item is; `turn` is the prototype whose turn it is, if
there is one. -/
def offence (turn : Option Declaration) : Item → Violation
  | .declaration d => .located .unexpectedDeclaration [d.blame]
  | .definition d =>
    match turn with
    | none => .located .undeclaredDefinition [d.location]
    | some p => .located .outOfOrder [p.location, d.location]

namespace Matcher

/-- Whether a matcher takes items for reconciliation. -/
def TakesItems (m : Matcher) : Prop := m.phase = .scanning ∨ m.phase = .reconciling

theorem TakesItems.not_violated {m : Matcher} (h : m.TakesItems) : m.phase ≠ .violated := by
  rcases h with h | h
  · rw [h]
    decide
  · rw [h]
    decide

/-! ## One item -/

/-- An item that does not offend is accepted; a compared one uses up a prototype. -/
theorem reconcileOne_of_not_offends {m : Matcher} {i : Item} (hm : m.TakesItems)
    (hi : ¬ Offends m.pending [] i) :
    m.reconcileOne i =
      (⟨m.pending.drop (comparedCount [i]), .reconciling, m.matched + comparedCount [i]⟩,
        none) := by
  have hphase : m.phase = .scanning ∨ m.phase = .reconciling := hm
  rw [reconcileOne, if_pos hphase]
  cases i with
  | declaration d => exact absurd trivial hi
  | definition d =>
    cases hd : d.isExempt with
    | true =>
      rw [comparedCount_exempt hd]
      simp [hd]
    | false =>
      rcases (not_offends_definition_iff m.pending d).1 hi with hex | ⟨p, rest, hp, hname⟩
      · rw [hd] at hex
        exact absurd hex Bool.false_ne_true
      · rw [comparedCount_compared hd]
        simp [hd, matchFront, hp, hname]

/-- An item that offends is reported.  It uses up a prototype all the same if it is
compared. -/
theorem reconcileOne_of_offends {m : Matcher} {i : Item} (hm : m.TakesItems)
    (hi : Offends m.pending [] i) :
    m.reconcileOne i =
      (⟨m.pending.drop (comparedCount [i]), .violated, m.matched⟩,
        some (.violation (offence m.pending[0]? i))) := by
  have hphase : m.phase = .scanning ∨ m.phase = .reconciling := hm
  rw [reconcileOne, if_pos hphase]
  cases i with
  | declaration d => rfl
  | definition d =>
    obtain ⟨hd, hturn⟩ := hi
    rw [comparedCount_compared hd]
    cases hp : m.pending with
    | nil => simp [hd, matchFront, violate, offence]
    | cons p rest =>
      have hname : p.name ≠ d.name := by simpa [hp] using hturn
      simp [hd, matchFront, hname, offence]

/-! ## A reconciliation -/

theorem reconcile_item_of_none {m m' : Matcher} {i : Item} (h : m.reconcileOne i = (m', none))
    (finds : List Find) : m.reconcile (.item i :: finds) = m'.reconcile finds := by
  rw [reconcile, h]

theorem reconcile_item_of_some {m m' : Matcher} {i : Item} {stop : Stop}
    (h : m.reconcileOne i = (m', some stop)) (finds : List Find) :
    m.reconcile (.item i :: finds) = .pure ⟨m', some stop, finds⟩ := by
  rw [reconcile, h]

/-- Clean items are all accepted, and each compared one uses up a prototype. -/
theorem reconcile_of_clean {m : Matcher} {finds : List Find} {items : List Item}
    (hm : m.TakesItems) (hitems : finds.filterMap Find.item? = items)
    (h : Clean m.pending items) :
    ∃ m' : Matcher, m'.TakesItems ∧ m'.pending = m.pending.drop (comparedCount items) ∧
      m'.matched = m.matched + comparedCount items ∧
      (m.reconcile finds).value = ⟨m', none, []⟩ := by
  subst hitems
  induction finds generalizing m with
  | nil => exact ⟨m, hm, rfl, rfl, rfl⟩
  | cons f finds ih =>
    cases f with
    | nameless file row => exact ih hm h
    | item i =>
      have hitems : (Find.item i :: finds).filterMap Find.item? =
          i :: finds.filterMap Find.item? := rfl
      rw [hitems, clean_cons_iff] at h
      -- the others are reconciled by the matcher that the first one leaves
      obtain ⟨m', hm', hpending, hmatched, hvalue⟩ := ih (m := ⟨m.pending.drop
        (comparedCount [i]), .reconciling, m.matched + comparedCount [i]⟩) (Or.inr rfl) h.2
      refine ⟨m', hm', ?_, ?_, ?_⟩
      · rw [hpending, hitems, comparedCount_cons i (finds.filterMap Find.item?), List.drop_drop]
      · rw [hmatched, hitems, comparedCount_cons i (finds.filterMap Find.item?), Nat.add_assoc]
      · rw [reconcile_item_of_none (reconcileOne_of_not_offends hm h.1), hvalue]

/-- The first item that offends is reported, and the items before it have been accepted. -/
theorem reconcile_of_firstOffence {m : Matcher} {finds : List Find} {items before : List Item}
    {x : Item} {after : List Item} (hm : m.TakesItems)
    (hitems : finds.filterMap Find.item? = items)
    (h : FirstOffence m.pending items before x after) :
    (m.reconcile finds).value.matcher =
        ⟨m.pending.drop (comparedCount (before ++ [x])), .violated,
          m.matched + comparedCount before⟩ ∧
      (m.reconcile finds).value.stop =
        some (.violation (offence m.pending[comparedCount before]? x)) := by
  subst hitems
  induction finds generalizing m before with
  | nil =>
    have hsplit := h.split
    simp at hsplit
  | cons f finds ih =>
    cases f with
    | nameless file row => exact ih hm h
    | item i =>
      have hsplit : i :: finds.filterMap Find.item? = before ++ x :: after := h.split
      cases before with
      | nil =>
        rw [List.nil_append, List.cons.injEq] at hsplit
        rw [← hsplit.1]
        have hi : Offends m.pending [] i := hsplit.1 ▸ h.offends
        rw [reconcile_item_of_some (reconcileOne_of_offends hm hi)]
        exact ⟨rfl, rfl⟩
      | cons j before =>
        rw [List.cons_append, List.cons.injEq] at hsplit
        obtain ⟨rfl, -⟩ := hsplit
        -- the first item is clean, so the offender is sought with the queue that it leaves
        have hi : ¬ Offends m.pending [] i := ((clean_cons_iff _ i before).1 h.clean).1
        have hrest := ih (m := ⟨m.pending.drop (comparedCount [i]), .reconciling,
          m.matched + comparedCount [i]⟩) (Or.inr rfl) ((firstOffence_cons_iff hi _ _ _ _).1 h)
        rw [reconcile_item_of_none (reconcileOne_of_not_offends hm hi), hrest.1, hrest.2,
          List.cons_append, comparedCount_cons i before, comparedCount_cons i (before ++ [x])]
        simp only [List.drop_drop, List.getElem?_drop, Nat.add_assoc, and_self]

/-! ## The finish -/

/-- A prototype that still waits is reported by the finish. -/
theorem finish_of_pending {m : Matcher} {p : Declaration} (hm : m.phase ≠ .violated)
    (h : m.pending[0]? = some p) :
    m.finish.value =
      ⟨m.violate, some (.violation (.located .undefinedDeclaration [p.location])), []⟩ := by
  rw [finish, if_neg hm]
  cases hp : m.pending with
  | nil => simp [hp] at h
  | cons q rest =>
    have hq : q = p := by simpa [hp] using h
    rw [hq]
    rfl

/-- With no prototype left the finish succeeds. -/
theorem finish_of_empty {m : Matcher} (hm : m.phase ≠ .violated) (h : m.pending = []) :
    m.finish.value = ⟨{ m with phase := .done }, none, []⟩ := by
  rw [finish, if_neg hm, h]
  rfl

/-! ## A reconciliation and the finish -/

/-- Clean items succeed unless a prototype is left over, and then the first one left over is
reported. -/
theorem settle_of_clean {m : Matcher} {finds : List Find} {items : List Item}
    (hm : m.TakesItems) (hitems : finds.filterMap Find.item? = items)
    (h : Clean m.pending items) :
    (m.settle finds).value =
      match m.pending[comparedCount items]? with
      | some p => .error (.violation (.located .undefinedDeclaration [p.location]))
      | none => .ok () := by
  obtain ⟨m', hm', hpending, -, hvalue⟩ := reconcile_of_clean hm hitems h
  simp only [settle, hvalue]
  cases hp : m.pending[comparedCount items]? with
  | some p =>
    rw [finish_of_pending hm'.not_violated (p := p) (by simpa [hpending] using hp)]
    rfl
  | none => rw [finish_of_empty hm'.not_violated (by simpa [hpending] using hp)]

/-- The first item that offends is reported. -/
theorem settle_of_firstOffence {m : Matcher} {finds : List Find} {items before : List Item}
    {x : Item} {after : List Item} (hm : m.TakesItems)
    (hitems : finds.filterMap Find.item? = items)
    (h : FirstOffence m.pending items before x after) :
    (m.settle finds).value =
      .error (.violation (offence m.pending[comparedCount before]? x)) := by
  have hstop := (reconcile_of_firstOffence hm hitems h).2
  simp only [settle, hstop, Failure.ofStop]

/-- What comes of items that are reconciled with prototypes. -/
def outcome (declared : List Declaration) (items : List Item) : Except Failure Unit :=
  (settle ⟨declared, .reconciling, 0⟩ (items.map .item)).value

/-- The items of a call are what a reading of them comes across. -/
theorem filterMap_item_map (items : List Item) :
    (items.map Find.item).filterMap Find.item? = items := by
  rw [List.filterMap_map]
  exact List.filterMap_some

theorem outcome_of_clean {declared : List Declaration} {items : List Item}
    (h : Clean declared items) :
    outcome declared items =
      match declared[comparedCount items]? with
      | some p => .error (.violation (.located .undefinedDeclaration [p.location]))
      | none => .ok () :=
  settle_of_clean (Or.inr rfl) (filterMap_item_map items) h

theorem outcome_of_firstOffence {declared : List Declaration} {items before : List Item}
    {x : Item} {after : List Item} (h : FirstOffence declared items before x after) :
    outcome declared items =
      .error (.violation (offence declared[comparedCount before]? x)) :=
  settle_of_firstOffence (Or.inr rfl) (filterMap_item_map items) h

/-- Nothing but the prototypes that wait and the items that follow decides on what comes of
them: neither what is passed over nor what has been matched before. -/
theorem value_settle {m : Matcher} {finds : List Find} {items : List Item} (hm : m.TakesItems)
    (hitems : finds.filterMap Find.item? = items) :
    (m.settle finds).value = outcome m.pending items := by
  rcases clean_or_firstOffence m.pending items with hclean | ⟨before, x, after, hfirst⟩
  · rw [settle_of_clean hm hitems hclean, outcome_of_clean hclean]
  · rw [settle_of_firstOffence hm hitems hfirst, outcome_of_firstOffence hfirst]

/-- Items succeed exactly when they answer the prototypes. -/
theorem outcome_eq_ok_iff (declared : List Declaration) (items : List Item) :
    outcome declared items = .ok () ↔ Answers declared items := by
  rw [answers_iff]
  rcases clean_or_firstOffence declared items with hclean | ⟨before, x, after, hfirst⟩
  · rw [outcome_of_clean hclean, ← List.getElem?_eq_none_iff]
    cases h : declared[comparedCount items]? with
    | none => simp [hclean]
    | some p => simp
  · rw [outcome_of_firstOffence hfirst]
    simp [hfirst.not_clean]

/-! ## Calls on a fresh matcher -/

/-- Makes calls one after the other until one does not succeed. -/
def attempt (m : Matcher) : List Call → Matcher × Option Stop
  | [] => (m, none)
  | c :: calls =>
    match (m.call c).value.stop with
    | some stop => ((m.call c).value.matcher, some stop)
    | none => attempt (m.call c).value.matcher calls

/-- After its scan of prototypes a fresh matcher has them in its queue. -/
theorem attempt_scan (declared : List Declaration) (calls : List Call) :
    fresh.attempt (.scan (declared.map .declaration) :: calls) =
      attempt ⟨declared, .scanning, 0⟩ calls := by
  rw [attempt, call, scan_of_prototypes (filterMap_item_map (declared.map .declaration))]

/-- A scan of prototypes, a reconciliation of clean items, and the finish. -/
theorem attempt_of_clean {declared : List Declaration} {items : List Item}
    (h : Clean declared items) :
    fresh.attempt [.scan (declared.map .declaration), .reconcile items, .finish] =
      match declared[comparedCount items]? with
      | some p =>
        (⟨declared.drop (comparedCount items), .violated, comparedCount items⟩,
          some (.violation (.located .undefinedDeclaration [p.location])))
      | none => (⟨[], .done, comparedCount items⟩, none) := by
  obtain ⟨m', hm', hpending, hmatched, hvalue⟩ :=
    reconcile_of_clean (m := ⟨declared, .scanning, 0⟩) (Or.inl rfl) (filterMap_item_map items) h
  rw [attempt_scan]
  simp only [attempt, call, hvalue]
  cases hp : declared[comparedCount items]? with
  | some p =>
    rw [finish_of_pending hm'.not_violated (p := p) (by simpa [hpending] using hp)]
    simp [violate, hpending, hmatched]
  | none =>
    have hnil : m'.pending = [] := by simpa [hpending] using hp
    rw [finish_of_empty hm'.not_violated hnil]
    simp [hnil, hmatched]

/-- A scan of prototypes and a reconciliation of items one of which offends. -/
theorem attempt_of_firstOffence {declared : List Declaration} {items before : List Item}
    {x : Item} {after : List Item} (h : FirstOffence declared items before x after) :
    fresh.attempt [.scan (declared.map .declaration), .reconcile items, .finish] =
      (⟨declared.drop (comparedCount (before ++ [x])), .violated, comparedCount before⟩,
        some (.violation (offence declared[comparedCount before]? x))) := by
  have hrun := reconcile_of_firstOffence (m := ⟨declared, .scanning, 0⟩) (Or.inl rfl)
    (filterMap_item_map items) h
  rw [attempt_scan]
  simp only [attempt, call, hrun, Nat.zero_add]

/-- **Diagnosis.**  A fresh matcher scans the prototypes `declared`, reconciles `items` and
finishes.

If some item offends, the first one is reported: a prototype where it begins, a body at its
name, and a body whose turn is another prototype's after the name of that one, which has
left the queue.  The bodies before it have been matched.

If no item offends, the finish reports the first prototype that is left over, or all has
been matched.  There is no third case. -/
theorem attempt_diagnosis (declared : List Declaration) (items : List Item) :
    let run := fresh.attempt [.scan (declared.map .declaration), .reconcile items, .finish]
    (∀ before x after, FirstOffence declared items before x after →
      (∀ d, x = .declaration d →
        run = (⟨declared.drop (comparedCount before), .violated, comparedCount before⟩,
          some (.violation (.located .unexpectedDeclaration [d.blame])))) ∧
      (∀ d, x = .definition d → comparedCount before = declared.length →
        run = (⟨declared.drop (comparedCount before), .violated, comparedCount before⟩,
          some (.violation (.located .undeclaredDefinition [d.location])))) ∧
      (∀ d, x = .definition d → comparedCount before ≠ declared.length →
        ∃ p, declared[comparedCount before]? = some p ∧
          run = (⟨declared.drop (comparedCount before + 1), .violated, comparedCount before⟩,
            some (.violation (.located .outOfOrder [p.location, d.location]))))) ∧
    (Clean declared items →
      (∀ p, declared[comparedCount items]? = some p →
        run = (⟨declared.drop (comparedCount items), .violated, comparedCount items⟩,
          some (.violation (.located .undefinedDeclaration [p.location])))) ∧
      (declared.length ≤ comparedCount items →
        comparedCount items = declared.length ∧
          run = (⟨[], .done, comparedCount items⟩, none))) ∧
    (Clean declared items ∨
      ∃ before x after, FirstOffence declared items before x after) := by
  intro run
  refine ⟨?_, ?_, clean_or_firstOffence declared items⟩
  · intro before x after h
    have hrun : run = _ := attempt_of_firstOffence h
    rw [comparedCount_append] at hrun
    refine ⟨?_, ?_, ?_⟩
    · rintro d rfl
      exact hrun
    · rintro d rfl hm
      rw [hrun, comparedCount_compared h.offends.1, hm]
      simp [offence]
    · rintro d rfl hm
      have hle := h.clean.comparedCount_le
      have hlt : comparedCount before < declared.length := by omega
      have hp := List.getElem?_eq_getElem hlt
      refine ⟨_, hp, ?_⟩
      rw [hrun, comparedCount_compared h.offends.1, hp]
      rfl
  · intro h
    have hrun : run = _ := attempt_of_clean h
    refine ⟨?_, ?_⟩
    · intro p hp
      rw [hrun, hp]
    · intro hle
      refine ⟨Nat.le_antisymm h.comparedCount_le hle, ?_⟩
      rw [hrun, List.getElem?_eq_none hle]

/-- Prototypes `a`, `b` and bodies `s` (static), `a`, `c`: the body `c` is reported after the
prototype `b`, which has left the queue. -/
theorem attempt_diagnosis_swapped :
    let place (row : Int) : Location := ⟨row, 4, "f.h", ""⟩
    let declared : List Declaration := [⟨"a", place 0, none⟩, ⟨"b", place 1, none⟩]
    let accepted : List Item :=
      [.definition ⟨"s", place 2, true⟩, .definition ⟨"a", place 3, false⟩]
    let x : Item := .definition ⟨"c", place 4, false⟩
    FirstOffence declared (accepted ++ [x]) accepted x [] ∧
      comparedCount accepted ≠ declared.length ∧
      fresh.attempt [.scan (declared.map .declaration), .reconcile (accepted ++ [x]), .finish] =
        (⟨[], .violated, 1⟩, some (.violation (.located .outOfOrder [place 1, place 4]))) := by
  intro place declared accepted x
  have hfirst : FirstOffence declared (accepted ++ [x]) accepted x [] :=
    ⟨rfl, by decide, by decide⟩
  have hcount : comparedCount accepted ≠ declared.length := by decide
  refine ⟨hfirst, hcount, ?_⟩
  obtain ⟨p, hp, hrun⟩ :=
    ((attempt_diagnosis declared (accepted ++ [x])).1 accepted x [] hfirst).2.2 _ rfl hcount
  have hp' : some ⟨"b", place 1, none⟩ = some p := hp
  rw [Option.some.injEq] at hp'
  rw [hrun, ← hp']
  rfl

end Matcher

end PrototypeOrder
