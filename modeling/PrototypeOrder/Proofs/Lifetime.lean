/-
# The lifetime of a matcher

A matcher may be called in any order and as often as one likes, also after a call that did
not succeed.  A single call can do one of eight things (`Matcher.Move`), and all that holds of
a matcher after any calls (`Matcher.run`) follows from them.

* `Matcher.call_move` : every call is one of the moves;
* `Matcher.Move.phase`, `Matcher.Move.reports` : how a move changes the phase, and when it
  reports a violation;
* `Matcher.phase_run`, `Matcher.length_reported`, `Matcher.coherent_run` : where calls can lead,
  how many violations they report, and what the phase then tells about the queue.
-/
import Mathlib.Data.List.Induction
import PrototypeOrder.Proofs.Diagnosis

namespace PrototypeOrder

namespace Matcher

/-! ## Calls one after the other -/

/-- The matcher that a call leaves, whatever comes of the call. -/
def step (m : Matcher) (c : Call) : Matcher := (m.call c).value.matcher

/-- The matcher that calls leave, each made on what the one before has left. -/
def run (m : Matcher) (calls : List Call) : Matcher := calls.foldl step m

/-- What calls contribute, one after the other, where `f` tells what one call contributes. -/
def collect {α : Type} (f : Matcher → Call → List α) (m : Matcher) : List Call → List α
  | [] => []
  | c :: calls => f m c ++ collect f (m.step c) calls

@[simp]
theorem run_nil (m : Matcher) : m.run [] = m := rfl

theorem run_append (m : Matcher) (calls more : List Call) :
    m.run (calls ++ more) = (m.run calls).run more :=
  List.foldl_append

theorem run_snoc (m : Matcher) (calls : List Call) (c : Call) :
    m.run (calls ++ [c]) = (m.run calls).step c :=
  run_append m calls [c]

theorem collect_snoc {α : Type} (f : Matcher → Call → List α) (m : Matcher)
    (calls : List Call) (c : Call) :
    collect f m (calls ++ [c]) = collect f m calls ++ f (m.run calls) c := by
  induction calls generalizing m with
  | nil => simp [collect]
  | cons first calls ih =>
    rw [List.cons_append, collect, collect, ih, List.append_assoc]
    rfl

/-- The violation that a call reports, if it does. -/
def reportedBy (m : Matcher) (c : Call) : List Violation :=
  match (m.call c).value.stop with
  | some (.violation v) => [v]
  | _ => []

/-! ## What one call can do -/

/-- The items that a call wants to have reconciled. -/
def Call.reconciled : Call → List Item
  | .scan _ => []
  | .reconcileOne i => [i]
  | .reconcile items => items
  | .finish => []

/-- Why a call is refused, if it is.  A reconciliation of nothing is never refused. -/
def refusal? (m : Matcher) (c : Call) : Option Misuse :=
  match c with
  | .scan _ => if m.phase = .scanning then none else some (.wrongPhase m.phase .scanning)
  | .finish => if m.phase = .violated then some .alreadyViolated else none
  | .reconcileOne _ | .reconcile _ =>
    if c.reconciled = [] ∨ m.phase = .scanning ∨ m.phase = .reconciling then none
    else some (.wrongPhase m.phase .reconciling)

/-- What a call can do: the call, the matcher it leaves, and why it does not succeed if it
does not. -/
inductive Move (m : Matcher) : Call → Matcher → Option Stop → Prop where
  /-- prototypes are queued up to the end of the items -/
  | scanAll (hm : m.phase = .scanning) (declared : List Declaration) :
      Move m (.scan (declared.map .declaration))
        ⟨m.pending ++ declared, .scanning, m.matched⟩ none
  /-- prototypes are queued up to the first body -/
  | scanToBody (hm : m.phase = .scanning) (declared : List Declaration) (d : Definition)
      (rest : List Item) :
      Move m (.scan (declared.map .declaration ++ .definition d :: rest))
        ⟨m.pending ++ declared, .reconciling, m.matched⟩ none
  /-- no item is given, so nothing is checked and nothing changes -/
  | idle : Move m (.reconcile []) m none
  /-- no item offends -/
  | accept {c : Call} (hm : m.TakesItems) (hitems : c.reconciled ≠ [])
      (hclean : Clean m.pending c.reconciled) :
      Move m c
        ⟨m.pending.drop (comparedCount c.reconciled), .reconciling,
          m.matched + comparedCount c.reconciled⟩ none
  /-- an item offends -/
  | report {c : Call} {before : List Item} {x : Item} {after : List Item} (hm : m.TakesItems)
      (hfirst : FirstOffence m.pending c.reconciled before x after) :
      Move m c
        ⟨m.pending.drop (comparedCount (before ++ [x])), .violated,
          m.matched + comparedCount before⟩
        (some (.violation (offence m.pending[comparedCount before]? x)))
  /-- a finish with no prototype left -/
  | close (hm : m.phase ≠ .violated) (hpending : m.pending = []) :
      Move m .finish { m with phase := .done } none
  /-- a finish with a prototype left -/
  | abandon {p : Declaration} (hm : m.phase ≠ .violated) (hpending : m.pending[0]? = some p) :
      Move m .finish m.violate
        (some (.violation (.located .undefinedDeclaration [p.location])))
  /-- a call in the wrong phase -/
  | refuse {c : Call} {misuse : Misuse} (h : m.refusal? c = some misuse) :
      Move m c m (some (.misuse misuse))

/-! ### Scans -/

theorem call_scan_of_prototypes {m : Matcher} (hm : m.phase = .scanning)
    (declared : List Declaration) :
    (m.call (.scan (declared.map .declaration))).value =
      ⟨⟨⟨m.pending ++ declared, .scanning, m.matched⟩, none, []⟩, none⟩ := by
  have hfrom := scanFrom_append m (filterMap_item_map (declared.map .declaration)) []
  rw [List.append_nil] at hfrom
  rw [call, scan, if_pos hm, hfrom, ← hm]
  rfl

theorem call_scan_of_body {m : Matcher} (hm : m.phase = .scanning)
    (declared : List Declaration) (d : Definition) (rest : List Item) :
    (m.call (.scan (declared.map .declaration ++ .definition d :: rest))).value =
      ⟨⟨⟨m.pending ++ declared, .reconciling, m.matched⟩, none, rest.map .item⟩, some d⟩ := by
  have hfrom := scanFrom_append m (filterMap_item_map (declared.map .declaration))
    (.item (.definition d) :: rest.map .item)
  rw [call, scan, if_pos hm, List.map_append, List.map_cons, hfrom]
  rfl

theorem call_scan_of_refused {m : Matcher} (hm : m.phase ≠ .scanning) (items : List Item) :
    (m.call (.scan items)).value =
      ⟨⟨m, some (.misuse (.wrongPhase m.phase .scanning)), items.map .item⟩, none⟩ := by
  rw [call, scan, if_neg hm]
  rfl

theorem scan_move (m : Matcher) (items : List Item) :
    Move m (.scan items) (m.call (.scan items)).value.matcher
      (m.call (.scan items)).value.stop := by
  by_cases hm : m.phase = .scanning
  · rcases prototypes_or_body items with ⟨declared, rfl⟩ | ⟨declared, d, rest, rfl⟩
    · rw [call_scan_of_prototypes hm]
      exact Move.scanAll hm declared
    · rw [call_scan_of_body hm]
      exact Move.scanToBody hm declared d rest
  · have hrefused : m.refusal? (.scan items) = some (.wrongPhase m.phase .scanning) := by
      rw [refusal?, if_neg hm]
    rw [call_scan_of_refused hm]
    exact Move.refuse hrefused

/-! ### Reconciliations -/

/-- A call for one item is a reconciliation of that item. -/
theorem call_reconcileOne (m : Matcher) (i : Item) :
    (m.call (.reconcileOne i)).value.matcher = (m.call (.reconcile [i])).value.matcher ∧
      (m.call (.reconcileOne i)).value.stop = (m.call (.reconcile [i])).value.stop := by
  cases hi : m.reconcileOne i with
  | mk m' stop =>
    cases stop with
    | none =>
      simp only [call, List.map_cons, List.map_nil, reconcile_item_of_none hi, hi]
      exact ⟨rfl, rfl⟩
    | some stop =>
      simp only [call, List.map_cons, List.map_nil, reconcile_item_of_some hi, hi]
      exact ⟨rfl, rfl⟩

/-- A matcher that takes no items refuses any. -/
theorem reconcileOne_of_refused {m : Matcher} (hm : ¬ m.TakesItems) (i : Item) :
    m.reconcileOne i = (m, some (.misuse (.wrongPhase m.phase .reconciling))) := by
  have hphase : ¬ (m.phase = .scanning ∨ m.phase = .reconciling) := hm
  rw [reconcileOne, if_neg hphase]

/-- After clean items, of which there is one at least, the matcher reconciles. -/
theorem reconcile_items_of_clean {m : Matcher} {items : List Item} (hm : m.TakesItems)
    (hitems : items ≠ []) (h : Clean m.pending items) :
    (m.reconcile (items.map .item)).value =
      ⟨⟨m.pending.drop (comparedCount items), .reconciling, m.matched + comparedCount items⟩,
        none, []⟩ := by
  induction items generalizing m with
  | nil => exact absurd rfl hitems
  | cons i items ih =>
    rw [clean_cons_iff] at h
    rw [List.map_cons, reconcile_item_of_none (reconcileOne_of_not_offends hm h.1)]
    cases items with
    | nil => rfl
    | cons j items =>
      rw [ih (Or.inr rfl) (by simp) h.2, comparedCount_cons i (j :: items), List.drop_drop,
        Nat.add_assoc]

theorem reconcile_move (m : Matcher) {c : Call} (hitems : c.reconciled ≠ [])
    (hrefusal : m.refusal? c = if c.reconciled = [] ∨ m.phase = .scanning ∨
      m.phase = .reconciling then none else some (.wrongPhase m.phase .reconciling)) :
    Move m c (m.reconcile (c.reconciled.map .item)).value.matcher
      (m.reconcile (c.reconciled.map .item)).value.stop := by
  by_cases hm : m.TakesItems
  · rcases clean_or_firstOffence m.pending c.reconciled with
      hclean | ⟨before, x, after, hfirst⟩
    · rw [reconcile_items_of_clean hm hitems hclean]
      exact Move.accept hm hitems hclean
    · obtain ⟨hmatcher, hstop⟩ :=
        reconcile_of_firstOffence hm (filterMap_item_map c.reconciled) hfirst
      rw [hmatcher, hstop]
      exact Move.report hm hfirst
  · have hrefused : m.refusal? c = some (.wrongPhase m.phase .reconciling) := by
      rw [hrefusal, if_neg]
      rintro (hnil | hphase)
      · exact hitems hnil
      · exact hm hphase
    cases hc : c.reconciled with
    | nil => exact absurd hc hitems
    | cons i items =>
      rw [List.map_cons, reconcile_item_of_some (reconcileOne_of_refused hm i)]
      exact Move.refuse hrefused

/-! ### All calls -/

/-- **What a call can do.**  Every call on every matcher is one of the moves. -/
theorem call_move (m : Matcher) (c : Call) :
    Move m c (m.step c) (m.call c).value.stop := by
  rw [step]
  cases c with
  | scan items => exact scan_move m items
  | reconcileOne i =>
    rw [(call_reconcileOne m i).1, (call_reconcileOne m i).2]
    exact reconcile_move m (c := .reconcileOne i) (by simp [Call.reconciled]) rfl
  | reconcile items =>
    cases items with
    | nil => exact Move.idle
    | cons i items =>
      exact reconcile_move m (c := .reconcile (i :: items)) (by simp [Call.reconciled]) rfl
  | finish =>
    by_cases hm : m.phase = .violated
    · have hrefused : m.refusal? .finish = some .alreadyViolated := by
        rw [refusal?, if_pos hm]
      rw [call, finish, if_pos hm]
      exact Move.refuse hrefused
    · cases hp : m.pending[0]? with
      | none =>
        have hnil : m.pending = [] := by simpa using hp
        rw [call, finish_of_empty hm hnil]
        exact Move.close hm hnil
      | some p =>
        rw [call, finish_of_pending hm hp]
        exact Move.abandon hm hp

end Matcher

/-! ## Phases go one way -/

/-- Whether a phase can be followed by another one: scanning by any other, reconciling by the
two that are final. -/
def Phase.LeadsTo : Phase → Phase → Prop
  | .scanning, next => next ≠ .scanning
  | .reconciling, next => next = .done ∨ next = .violated
  | .done, _ => False
  | .violated, _ => False

/-- There is no way back to scanning. -/
theorem Phase.LeadsTo.ne_scanning {p q : Phase} (h : p.LeadsTo q) : q ≠ .scanning := by
  cases p with
  | scanning => exact h
  | reconciling =>
    rintro rfl
    rcases h with h | h
    · cases h
    · cases h
  | done => exact absurd h id
  | violated => exact absurd h id

theorem Phase.LeadsTo.trans {p q r : Phase} (hpq : p.LeadsTo q) (hqr : q.LeadsTo r) :
    p.LeadsTo r := by
  cases p with
  | scanning => exact hqr.ne_scanning
  | reconciling =>
    -- a final phase leads nowhere
    rcases hpq with rfl | rfl
    · exact absurd hqr id
    · exact absurd hqr id
  | done => exact hpq
  | violated => exact hpq

namespace Matcher

/-- Whether a matcher is done only if no prototype waits.  A finish that finds a prototype
would otherwise leave the phase it is in. -/
def Coherent (m : Matcher) : Prop := m.phase = .done → m.pending = []

theorem coherent_fresh : fresh.Coherent := fun _ => rfl

variable {m m' : Matcher} {c : Call} {stop : Option Stop}

theorem Move.coherent (h : Move m c m' stop) (hm : m.Coherent) : m'.Coherent := by
  cases h with
  | close _ hpending => exact fun _ => hpending
  | idle => exact hm
  | refuse => exact hm
  | scanAll => exact Phase.noConfusion
  | scanToBody => exact Phase.noConfusion
  | accept => exact Phase.noConfusion
  | report => exact Phase.noConfusion
  | abandon => exact Phase.noConfusion

/-- A matcher that takes items is in a phase that both final ones can follow. -/
theorem TakesItems.leadsTo_violated (hm : m.TakesItems) : m.phase.LeadsTo .violated := by
  rcases hm with hm | hm
  · rw [hm]
    exact Phase.noConfusion
  · rw [hm]
    exact Or.inr rfl

/-- A move keeps the phase, or goes on to one that can follow. -/
theorem Move.phase (h : Move m c m' stop) (hcoherent : m.Coherent) :
    m.phase = m'.phase ∨ m.phase.LeadsTo m'.phase := by
  cases h with
  | scanAll hm => exact Or.inl hm
  | scanToBody hm =>
    rw [hm]
    exact Or.inr Phase.noConfusion
  | idle => exact Or.inl rfl
  | refuse => exact Or.inl rfl
  | accept hm =>
    rcases hm with hm | hm
    · rw [hm]
      exact Or.inr Phase.noConfusion
    · exact Or.inl hm
  | report hm => exact Or.inr hm.leadsTo_violated
  | close hm =>
    cases hphase : m.phase with
    | scanning => exact Or.inr Phase.noConfusion
    | reconciling => exact Or.inr (Or.inl rfl)
    | done => exact Or.inl rfl
    | violated => exact absurd hphase hm
  | abandon hm hpending =>
    cases hphase : m.phase with
    | scanning => exact Or.inr Phase.noConfusion
    | reconciling => exact Or.inr (Or.inr rfl)
    | done =>
      rw [hcoherent hphase] at hpending
      cases hpending
    | violated => exact absurd hphase hm

/-- A move reports a violation exactly when it ends in the phase for it and did not begin
there. -/
theorem Move.reports (h : Move m c m' stop) :
    (∃ v, stop = some (.violation v)) ↔ m.phase ≠ .violated ∧ m'.phase = .violated := by
  cases h with
  | report hm => simp [hm.not_violated]
  | abandon hm => simp [hm, violate]
  | scanAll => simp
  | scanToBody => simp
  | accept => simp
  | close => simp
  | idle => simp
  | refuse => simp

/-- A call that is told of a misuse is refused, and leaves the matcher as it was. -/
theorem Move.unchanged {misuse : Misuse} (h : Move m c m' (some (.misuse misuse))) :
    m' = m ∧ m.refusal? c = some misuse := by
  cases h with
  | refuse hrefusal => exact ⟨rfl, hrefusal⟩

/-! ## Runs -/

theorem coherent_run (calls : List Call) : (fresh.run calls).Coherent := by
  induction calls using List.reverseRecOn with
  | nil => exact coherent_fresh
  | append_singleton calls c ih =>
    rw [run_snoc]
    exact (call_move _ c).coherent ih

/-- Calls keep the phase, or go on to one that can follow. -/
theorem phase_run (calls more : List Call) :
    (fresh.run calls).phase = (fresh.run (calls ++ more)).phase ∨
      (fresh.run calls).phase.LeadsTo (fresh.run (calls ++ more)).phase := by
  induction more using List.reverseRecOn with
  | nil => exact Or.inl (by rw [List.append_nil])
  | append_singleton more c ih =>
    rw [← List.append_assoc, run_snoc]
    have hstep := (call_move (fresh.run (calls ++ more)) c).phase (coherent_run _)
    rcases ih with hsame | hleads
    · rw [hsame]
      exact hstep
    · rcases hstep with hsame | hleads'
      · exact Or.inr (hsame ▸ hleads)
      · exact Or.inr (hleads.trans hleads')

/-- A matcher that has reported a violation stays so. -/
theorem step_violated (calls : List Call) (c : Call)
    (h : (fresh.run calls).phase = .violated) : ((fresh.run calls).step c).phase = .violated := by
  rcases (call_move (fresh.run calls) c).phase (coherent_run calls) with hsame | hleads
  · exact hsame.symm.trans h
  · rw [h] at hleads
    exact absurd hleads id

theorem length_reportedBy (m : Matcher) (c : Call) :
    (m.reportedBy c).length =
      if m.phase ≠ .violated ∧ (m.step c).phase = .violated then 1 else 0 := by
  have hreports := (call_move m c).reports
  rw [reportedBy]
  split
  · rename_i v hstop
    rw [if_pos (hreports.1 ⟨v, hstop⟩)]
    rfl
  · rename_i hstop
    rw [if_neg]
    · rfl
    · intro h
      obtain ⟨v, hv⟩ := hreports.2 h
      exact hstop v hv

/-- One violation has been reported by a matcher in the phase for it, and none by any other. -/
theorem length_reported (calls : List Call) :
    (collect reportedBy fresh calls).length =
      if (fresh.run calls).phase = .violated then 1 else 0 := by
  induction calls using List.reverseRecOn with
  | nil => rfl
  | append_singleton calls c ih =>
    rw [collect_snoc, List.length_append, ih, length_reportedBy, run_snoc]
    by_cases h : (fresh.run calls).phase = .violated
    · simp [h, step_violated calls c h]
    · simp [h]

/-! ## Calls on a matcher that takes no more -/

/-- A matcher that takes no items refuses every call but a reconciliation of nothing and,
unless it has reported a violation, a finish. -/
theorem Move.refused (h : Move m c m' stop) (hm : ¬ m.TakesItems) (hidle : c ≠ .reconcile [])
    (hfinish : c = .finish → m.phase = .violated) :
    ∃ misuse, stop = some (.misuse misuse) := by
  cases h with
  | refuse => exact ⟨_, rfl⟩
  | scanAll hscanning => exact absurd (Or.inl hscanning) hm
  | scanToBody hscanning => exact absurd (Or.inl hscanning) hm
  | accept htakes => exact absurd htakes hm
  | report htakes => exact absurd htakes hm
  | idle => exact absurd rfl hidle
  | close hne => exact absurd (hfinish rfl) hne
  | abandon hne => exact absurd (hfinish rfl) hne

theorem not_takesItems (hm : m.phase = .done ∨ m.phase = .violated) : ¬ m.TakesItems := by
  rintro (h | h)
  · simp [h] at hm
  · simp [h] at hm

/-- A refused scan consumes nothing. -/
theorem rest_of_refused_scan {items : List Item} {misuse : Misuse}
    (h : (m.call (.scan items)).value.stop = some (.misuse misuse)) :
    (m.call (.scan items)).value.rest = items.map .item := by
  have hmove := call_move m (.scan items)
  rw [h] at hmove
  have hphase : m.phase ≠ .scanning := by
    intro hscanning
    have hrefusal := hmove.unchanged.2
    rw [refusal?, if_pos hscanning] at hrefusal
    cases hrefusal
  rw [call_scan_of_refused hphase]

/-- A finish of a matcher that is done succeeds again and changes nothing. -/
theorem finish_again (hm : m.phase = .done) (hcoherent : m.Coherent) :
    (m.call .finish).value.stop = none ∧ m.step .finish = m := by
  have hne : m.phase ≠ .violated := by
    rw [hm]
    exact Phase.noConfusion
  rw [step, call, finish_of_empty hne (hcoherent hm), ← hm]
  exact ⟨rfl, rfl⟩

/-- **A lifetime goes one way.**  Any calls are made on a fresh matcher, one after the other,
whatever comes of each.

* However many more are made, the phase stays, or goes on to one that can follow.
* At most one violation is reported, and the phase is the one for it exactly when one has been.
* A call that is refused leaves the matcher as it was, and a refused scan consumes nothing.
* After a violation everything is refused but a reconciliation of nothing.
* A matcher that is done refuses the same, except that a finish succeeds again and changes
  nothing. -/
theorem lifetime_one_way (calls : List Call) :
    let m := fresh.run calls
    let reported := collect reportedBy fresh calls
    (∀ more, m.phase = (fresh.run (calls ++ more)).phase ∨
      m.phase.LeadsTo (fresh.run (calls ++ more)).phase) ∧
    (reported.length ≤ 1 ∧ (m.phase = .violated ↔ reported ≠ [])) ∧
    (∀ c misuse, (m.call c).value.stop = some (.misuse misuse) →
      m.step c = m ∧ ∀ items, c = .scan items → (m.call c).value.rest = items.map .item) ∧
    (m.phase = .violated → ∀ c, c ≠ .reconcile [] →
      ∃ misuse, (m.call c).value.stop = some (.misuse misuse)) ∧
    (m.phase = .done →
      (∀ c, c ≠ .reconcile [] → c ≠ .finish →
        ∃ misuse, (m.call c).value.stop = some (.misuse misuse)) ∧
      (m.call .finish).value.stop = none ∧ m.step .finish = m) := by
  intro m reported
  have hlength : reported.length = if m.phase = .violated then 1 else 0 :=
    length_reported calls
  refine ⟨phase_run calls, ⟨?_, ?_⟩, ?_, ?_, ?_⟩
  · rw [hlength]
    split
    · exact Nat.le_refl 1
    · exact Nat.zero_le 1
  · rw [← List.length_pos_iff, hlength]
    by_cases hphase : m.phase = .violated
    · simp [hphase]
    · simp [hphase]
  · intro c misuse hstop
    have hmove := call_move m c
    rw [hstop] at hmove
    refine ⟨hmove.unchanged.1, ?_⟩
    rintro items rfl
    exact rest_of_refused_scan hstop
  · intro hphase c hidle
    exact (call_move m c).refused (not_takesItems (Or.inr hphase)) hidle
      fun _ => hphase
  · intro hphase
    refine ⟨?_, finish_again hphase (coherent_run calls)⟩
    intro c hidle hfinish
    exact (call_move m c).refused (not_takesItems (Or.inl hphase)) hidle
      fun h => absurd h hfinish

/-- A prototype `a` is met by a body `b` in one lifetime and by a body `a` in another.  The
first ends with a violation and refuses its finish, the second is done and can be finished
again. -/
theorem lifetime_one_way_twice :
    let place (row : Int) : Location := ⟨row, 4, "f.h", ""⟩
    let a : Item := .declaration ⟨"a", place 0, none⟩
    let body (name : String) : Item := .definition ⟨name, place 1, false⟩
    let failed := fresh.run [.scan [a], .reconcileOne (body "b")]
    let passed := fresh.run [.scan [a], .reconcile [body "a"], .finish]
    failed.phase = .violated ∧
      (∃ misuse, (failed.call .finish).value.stop = some (.misuse misuse)) ∧
      passed.phase = .done ∧ passed.step .finish = passed := by
  intro place a body failed passed
  have hfailed : failed.phase = .violated := by decide
  have hpassed : passed.phase = .done := by decide
  obtain ⟨-, -, -, hrefuses, -⟩ := lifetime_one_way [.scan [a], .reconcileOne (body "b")]
  obtain ⟨-, -, -, -, hdone⟩ := lifetime_one_way [.scan [a], .reconcile [body "a"], .finish]
  exact ⟨hfailed, hrefuses hfailed .finish (by decide), hpassed, (hdone hpassed).2.2⟩

end Matcher

end PrototypeOrder
