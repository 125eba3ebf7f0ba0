/-
# Bodies in another order

Bodies that answer the prototypes are put in another order.  There are as many to be compared
as before, so the queue cannot run empty before a body stands in a wrong place, and nothing is
left over if none does.  The check therefore still succeeds, or the first body in a wrong place
is reported with the prototype whose turn it was.

* `Matcher.attempt_eq_none_iff` : prototypes and items pass when the items answer;
* `FirstOffence.bodies` : where the first offence is among items that are bodies only;
* `FirstOffence.firstDifference` : with no fewer prototypes than compared bodies it is where the
  names first differ.
-/
import PrototypeOrder.Proofs.Diagnosis

namespace PrototypeOrder

/-! ## Compared bodies -/

/-- The bodies that are compared with prototypes, in order. -/
def comparedBodies (bodies : List Definition) : List Definition :=
  bodies.filter fun d => !d.isExempt

theorem comparedBodies_append (bodies more : List Definition) :
    comparedBodies (bodies ++ more) = comparedBodies bodies ++ comparedBodies more :=
  List.filter_append bodies more

theorem comparedBodies_cons {d : Definition} (h : d.isExempt = false) (bodies : List Definition) :
    comparedBodies (d :: bodies) = d :: comparedBodies bodies :=
  List.filter_cons_of_pos (by rw [h]; rfl)

/-- Items that are bodies only have the names of the compared ones. -/
theorem comparedNames_bodies (bodies : List Definition) :
    comparedNames (bodies.map .definition) = (comparedBodies bodies).map Definition.name := by
  rw [comparedNames, List.filter_map, List.map_map]
  rfl

theorem comparedCount_bodies (bodies : List Definition) :
    comparedCount (bodies.map .definition) = (comparedBodies bodies).length := by
  rw [← length_comparedNames, comparedNames_bodies, List.length_map]

/-- Bodies answer prototypes when the compared ones have their names. -/
theorem answers_bodies_iff (declared : List Declaration) (bodies : List Definition) :
    Answers declared (bodies.map .definition) ↔
      (comparedBodies bodies).map Definition.name = declared.map Declaration.name := by
  rw [Answers, comparedNames_bodies]
  refine and_iff_right ?_
  intro i hi
  obtain ⟨d, -, rfl⟩ := List.mem_map.1 hi
  rfl

/-! ## The first difference -/

/-- Two lists of names differ at `k`, and nowhere before. -/
structure FirstDifference (names names' : List String) (k : Nat) : Prop where
  agree : ∀ j < k, names[j]? = names'[j]?
  differ : names[k]? ≠ names'[k]?

namespace FirstOffence

variable {declared : List Declaration} {before : List Item} {x : Item} {after : List Item}

/-- Among bodies the first offender is one of them, and it is compared. -/
theorem bodies {bodies : List Definition}
    (h : FirstOffence declared (bodies.map .definition) before x after) :
    ∃ earlier d later, bodies = earlier ++ d :: later ∧ before = earlier.map .definition ∧
      x = .definition d ∧ d.isExempt = false := by
  obtain ⟨earlier, rest, rfl, rfl, hrest⟩ := List.map_eq_append_iff.1 h.split
  obtain ⟨d, later, rfl, rfl, rfl⟩ := List.map_eq_cons_iff.1 hrest
  exact ⟨earlier, d, later, rfl, rfl, rfl, h.offends.1⟩

/-- If there are no fewer prototypes than compared bodies, the first offender has a prototype
whose turn it is, and that is where the names first differ. -/
theorem firstDifference {bodies : List Definition}
    (h : FirstOffence declared (bodies.map .definition) before x after)
    (hle : (comparedBodies bodies).length ≤ declared.length) :
    ∃ p d, declared[comparedCount before]? = some p ∧
      (comparedBodies bodies)[comparedCount before]? = some d ∧ x = .definition d ∧
      FirstDifference (declared.map Declaration.name)
        ((comparedBodies bodies).map Definition.name) (comparedCount before) := by
  obtain ⟨earlier, d, later, rfl, rfl, rfl, hd⟩ := h.bodies
  -- the offender stands behind the compared bodies before it
  have hsplit : comparedBodies (earlier ++ d :: later) =
      comparedBodies earlier ++ d :: comparedBodies later := by
    rw [comparedBodies_append, comparedBodies_cons hd]
  have hcount : comparedCount (earlier.map .definition) = (comparedBodies earlier).length :=
    comparedCount_bodies earlier
  have hlt : (comparedBodies earlier).length < declared.length := by
    rw [hsplit, List.length_append, List.length_cons] at hle
    omega
  have hat : (comparedBodies earlier ++ d :: comparedBodies later)[(comparedBodies earlier).length]?
      = some d := by
    rw [List.getElem?_append_right (Nat.le_refl _), Nat.sub_self, List.getElem?_cons_zero]
  rw [hsplit, hcount]
  refine ⟨_, d, List.getElem?_eq_getElem hlt, hat, rfl, ?_, ?_⟩
  · intro j hj
    -- the bodies before the offender are clean, so their names are those of the prototypes
    have hbegins := ((clean_iff declared _).1 h.clean).2
    rw [comparedNames_bodies] at hbegins
    have hj' : j < ((comparedBodies earlier).map Definition.name).length := by
      rwa [List.length_map]
    rw [List.map_append, List.getElem?_append_left hj']
    obtain ⟨rest, hrest⟩ := hbegins
    rw [← hrest, List.getElem?_append_left hj']
  · have hname := ((offends_definition_iff declared _ d).1 h.offends).2
    rw [hcount] at hname
    rwa [List.getElem?_map (f := Definition.name), hat]

end FirstOffence

namespace Matcher

/-! ## The check -/

/-- A scan of prototypes, a reconciliation and the finish succeed exactly when the items answer
the prototypes. -/
theorem attempt_eq_none_iff (declared : List Declaration) (items : List Item) :
    (fresh.attempt [.scan (declared.map .declaration), .reconcile items, .finish]).2 = none ↔
      Answers declared items := by
  rw [answers_iff]
  rcases clean_or_firstOffence declared items with hclean | ⟨before, x, after, hfirst⟩
  · rw [attempt_of_clean hclean, ← List.getElem?_eq_none_iff]
    cases declared[comparedCount items]? with
    | none => simp [hclean]
    | some p => simp
  · rw [attempt_of_firstOffence hfirst]
    simp [hfirst.not_clean]

/-- **Reordering.**  A fresh matcher scans the prototypes `declared`, reconciles `bodies` and
finishes, all with success.  The same is done with the bodies in another order.

* It succeeds, with all prototypes matched, exactly when the compared bodies have the same names
  in the same order as before.
* Otherwise, at the first place where the names differ, the body is reported as out of order
  after the prototype of this place.  All bodies before it have been matched.
* Nothing else is ever reported. -/
theorem attempt_reordered (declared : List Declaration) {bodies bodies' : List Definition}
    (hpass : (fresh.attempt [.scan (declared.map .declaration),
      .reconcile (bodies.map .definition), .finish]).2 = none)
    (hperm : bodies'.Perm bodies) :
    let run := fresh.attempt [.scan (declared.map .declaration),
      .reconcile (bodies'.map .definition), .finish]
    let names := (comparedBodies bodies).map Definition.name
    let names' := (comparedBodies bodies').map Definition.name
    (run.2 = none ↔ names' = names) ∧
    (names' = names → run = (⟨[], .done, declared.length⟩, none)) ∧
    (names' ≠ names → ∃ k p d, FirstDifference names names' k ∧ declared[k]? = some p ∧
      (comparedBodies bodies')[k]? = some d ∧
      run = (⟨declared.drop (k + 1), .violated, k⟩,
        some (.violation (.located .outOfOrder [p.location, d.location])))) ∧
    (∀ stop, run.2 = some stop → ∃ places, stop = .violation (.located .outOfOrder places)) := by
  intro run names names'
  have hnames : names = declared.map Declaration.name :=
    (answers_bodies_iff _ _).1 ((attempt_eq_none_iff _ _).1 hpass)
  have hsuccess : run.2 = none ↔ names' = names := by
    rw [hnames]
    exact (attempt_eq_none_iff _ _).trans (answers_bodies_iff _ _)
  -- a permutation has as many compared bodies, hence as many as there are prototypes
  have hlength : (comparedBodies bodies').length = declared.length := by
    have hcount := congrArg List.length hnames
    rw [List.length_map, List.length_map] at hcount
    exact (hperm.filter _).length_eq.trans hcount
  have hfailure : names' ≠ names → ∃ k p d, FirstDifference names names' k ∧
      declared[k]? = some p ∧ (comparedBodies bodies')[k]? = some d ∧
      run = (⟨declared.drop (k + 1), .violated, k⟩,
        some (.violation (.located .outOfOrder [p.location, d.location]))) := by
    intro hne
    rcases clean_or_firstOffence declared (bodies'.map .definition) with
      hclean | ⟨before, x, after, hfirst⟩
    · have hanswers : Answers declared (bodies'.map .definition) := by
        rw [answers_iff, comparedCount_bodies, hlength]
        exact ⟨hclean, Nat.le_refl _⟩
      exact absurd (((answers_bodies_iff _ _).1 hanswers).trans hnames.symm) hne
    · obtain ⟨p, d, hp, hd, rfl, hdiffer⟩ := hfirst.firstDifference (Nat.le_of_eq hlength)
      refine ⟨comparedCount before, p, d, hnames ▸ hdiffer, hp, hd, ?_⟩
      have hrun : run = _ := attempt_of_firstOffence hfirst
      rw [hrun, comparedCount_append, comparedCount_compared hfirst.offends.1, hp]
      rfl
  refine ⟨hsuccess, ?_, hfailure, ?_⟩
  · intro heq
    have hanswers := (attempt_eq_none_iff _ _).1 (hsuccess.2 heq)
    have hclean := ((answers_iff _ _).1 hanswers).1
    have hrun : run = _ := attempt_of_clean hclean
    rw [hrun, comparedCount_bodies, hlength, List.getElem?_eq_none (Nat.le_refl _)]
  · intro stop hstop
    have hne : names' ≠ names := by
      intro heq
      rw [hsuccess.2 heq] at hstop
      cases hstop
    obtain ⟨k, p, d, -, -, -, hrun⟩ := hfailure hne
    rw [hrun] at hstop
    exact ⟨_, (Option.some.inj hstop).symm⟩

/-- Prototypes `a`, `a`, `b` are answered by the bodies `a`, `s` (static), `a`, `b`.  The two
bodies `a` may change places, and `s` may stand anywhere.  With `b` before the second `a`, the
body `b` is reported after the second prototype. -/
theorem attempt_reordered_duplicates :
    let place (row : Int) : Location := ⟨row, 4, "f.h", ""⟩
    let declared : List Declaration :=
      [⟨"a", place 0, none⟩, ⟨"a", place 1, none⟩, ⟨"b", place 2, none⟩]
    let a : Definition := ⟨"a", place 3, false⟩
    let s : Definition := ⟨"s", place 4, true⟩
    let a' : Definition := ⟨"a", place 5, false⟩
    let b : Definition := ⟨"b", place 6, false⟩
    let run (bodies : List Definition) := fresh.attempt [.scan (declared.map .declaration),
      .reconcile (bodies.map .definition), .finish]
    (run [a, s, a', b]).2 = none ∧ run [s, a', a, b] = (⟨[], .done, 3⟩, none) ∧
      ∃ k p d, declared[k]? = some p ∧ (comparedBodies [a, b, s, a'])[k]? = some d ∧
        run [a, b, s, a'] = (⟨declared.drop (k + 1), .violated, k⟩,
          some (.violation (.located .outOfOrder [p.location, d.location]))) := by
  intro place declared a s a' b run
  have hpass : (run [a, s, a', b]).2 = none := by decide
  have hharmless : [s, a', a, b].Perm [a, s, a', b] := by decide
  have hswapped : [a, b, s, a'].Perm [a, s, a', b] := by decide
  obtain ⟨-, hdone, -⟩ := attempt_reordered declared hpass hharmless
  obtain ⟨-, -, hfails, -⟩ := attempt_reordered declared hpass hswapped
  obtain ⟨k, p, d, -, hp, hd, hrun⟩ := hfails (by decide)
  exact ⟨hpass, hdone (by decide), k, p, d, hp, hd, hrun⟩

end Matcher

end PrototypeOrder
