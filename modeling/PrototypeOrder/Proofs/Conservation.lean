/-
# Nothing is lost in the queue

A matcher takes in prototypes by scans and gives them out to bodies.  Over a whole lifetime,
misuse and violations included, its queue neither loses nor reorders any of them: what scans
have queued is what has left the queue, in order, and what is still in it.

A history is kept beside the matcher.  It is read off the calls: what a scan has consumed, by
what the queue is shorter after an item, and which bodies have been accepted.

* `Matcher.queued_eq` : what has been queued has left or still waits;
* `Matcher.matched_eq`, `Matcher.names_taken` : every prototype that has left went to an
  accepted body of its name, but for the one that an out-of-order body has met.
-/
import Mathlib.Data.List.Basic
import PrototypeOrder.Proofs.Lifetime

namespace PrototypeOrder

namespace Item

/-- The prototype that an item is, if it is one. -/
def declaration? : Item → Option Declaration
  | declaration d => some d
  | definition _ => none

/-- The body that an item is, if it is one that is compared. -/
def compared? : Item → Option Definition
  | declaration _ => none
  | definition d => if d.isExempt then none else some d

end Item

theorem length_compared? (i : Item) : i.compared?.toList.length = comparedCount [i] := by
  cases i with
  | declaration d => rfl
  | definition d =>
    cases hd : d.isExempt with
    | true => simp [Item.compared?, comparedCount_exempt hd, hd]
    | false => simp [Item.compared?, comparedCount_compared hd, hd]

namespace Matcher

/-! ## The history of one item -/

/-- The prototypes that leave the queue when an item is reconciled: those that waited before
and do not wait afterwards. -/
def takenFor (m : Matcher) (i : Item) : List Declaration :=
  m.pending.diff (m.reconcileOne i).1.pending

/-- The body that is accepted and compared when an item is reconciled. -/
def acceptedFor (m : Matcher) (i : Item) : List Definition :=
  if (m.reconcileOne i).2 = none then i.compared?.toList else []

/-- The number of prototypes that leave the queue without their body when a call stops: one
if a body is out of order. -/
def wasted : Option Stop → Nat
  | some (.violation v) => if v.kind = .fault .outOfOrder then 1 else 0
  | _ => 0

theorem diff_same (l : List Declaration) : l.diff l = [] := by
  induction l with
  | nil => rfl
  | cons p l ih => rw [List.diff_cons, List.erase_cons_head, ih]

/-- A list is longer than its tail by its head, also where the head occurs again. -/
theorem diff_tail (p : Declaration) (rest : List Declaration) : (p :: rest).diff rest = [p] := by
  induction rest with
  | nil => rfl
  | cons q rest ih =>
    rw [List.diff_cons]
    by_cases h : p = q
    · rw [h, List.erase_cons_head]
      exact h ▸ ih
    · rw [List.erase_cons_tail (by simpa using h), List.erase_cons_head]
      exact ih

/-- A compared item uses up the front of the queue, whether it is accepted or not. -/
theorem pending_reconcileOne {m : Matcher} (hm : m.TakesItems) (i : Item) :
    (m.reconcileOne i).1.pending = m.pending.drop (comparedCount [i]) := by
  by_cases hi : Offends m.pending [] i
  · rw [reconcileOne_of_offends hm hi]
  · rw [reconcileOne_of_not_offends hm hi]

theorem comparedCount_singleton (i : Item) : comparedCount [i] = 0 ∨ comparedCount [i] = 1 := by
  have h : comparedCount [i] ≤ 1 := List.countP_le_length
  omega

/-- What leaves the queue for an item is the front of it, if the item is compared. -/
theorem takenFor_of_takesItems {m : Matcher} (hm : m.TakesItems) (i : Item) :
    m.takenFor i = m.pending.take (comparedCount [i]) := by
  rw [takenFor, pending_reconcileOne hm]
  rcases comparedCount_singleton i with h | h
  · rw [h, List.drop_zero, List.take_zero, diff_same]
  · rw [h]
    cases m.pending with
    | nil => rfl
    | cons p rest => exact diff_tail p rest

/-- A refused item has no history. -/
theorem takenFor_of_refused {m : Matcher} (hm : ¬ m.TakesItems) (i : Item) :
    m.takenFor i = [] := by
  rw [takenFor, reconcileOne_of_refused hm, diff_same]

theorem acceptedFor_of_some {m : Matcher} {i : Item} {stop : Stop}
    (h : (m.reconcileOne i).2 = some stop) : m.acceptedFor i = [] := by
  rw [acceptedFor, h, if_neg (by simp)]

/-- What waits before an item leaves for it or still waits. -/
theorem takenFor_append (m : Matcher) (i : Item) :
    m.pending = m.takenFor i ++ (m.reconcileOne i).1.pending := by
  by_cases hm : m.TakesItems
  · rw [takenFor_of_takesItems hm, pending_reconcileOne hm, List.take_append_drop]
  · rw [takenFor_of_refused hm, reconcileOne_of_refused hm, List.nil_append]

/-- Accepted bodies are counted. -/
theorem matched_reconcileOne (m : Matcher) (i : Item) :
    (m.reconcileOne i).1.matched = m.matched + (m.acceptedFor i).length := by
  by_cases hm : m.TakesItems
  · by_cases hi : Offends m.pending [] i
    · have hone := reconcileOne_of_offends hm hi
      rw [acceptedFor_of_some (congrArg Prod.snd hone), hone]
      rfl
    · rw [acceptedFor, reconcileOne_of_not_offends hm hi, if_pos rfl, length_compared?]
  · have hone := reconcileOne_of_refused hm i
    rw [acceptedFor_of_some (congrArg Prod.snd hone), hone]
    rfl

/-- The prototypes that leave for an item have the names of the bodies that are accepted, but
for the one that a body out of order has met. -/
theorem names_takenFor (m : Matcher) (i : Item) :
    ∃ extra, (m.takenFor i).map Declaration.name =
        (m.acceptedFor i).map Definition.name ++ extra ∧
      extra.length = wasted (m.reconcileOne i).2 := by
  by_cases hm : m.TakesItems
  · rw [takenFor_of_takesItems hm]
    by_cases hi : Offends m.pending [] i
    · have hone := reconcileOne_of_offends hm hi
      refine ⟨(m.pending.take (comparedCount [i])).map Declaration.name, ?_, ?_⟩
      · rw [acceptedFor_of_some (congrArg Prod.snd hone)]
        rfl
      · rw [hone]
        cases i with
        | declaration d => rfl
        | definition d =>
          rw [comparedCount_compared hi.1]
          -- there is a prototype to meet, or there is none
          cases m.pending with
          | nil => rfl
          | cons p rest => rfl
    · have hone := reconcileOne_of_not_offends hm hi
      refine ⟨[], ?_, ?_⟩
      · rw [acceptedFor, hone, if_pos rfl, List.append_nil]
        cases i with
        | declaration d => exact absurd trivial hi
        | definition d =>
          cases hd : d.isExempt with
          | true => simp [comparedCount_exempt hd, Item.compared?, hd]
          | false =>
            rcases (not_offends_definition_iff m.pending d).1 hi with
              hexempt | ⟨p, rest, hp, hname⟩
            · rw [hd] at hexempt
              cases hexempt
            · simp [comparedCount_compared hd, Item.compared?, hd, hp, hname]
      · rw [hone]
        rfl
  · have hone := reconcileOne_of_refused hm i
    refine ⟨[], ?_, ?_⟩
    · rw [takenFor_of_refused hm, acceptedFor_of_some (congrArg Prod.snd hone)]
      rfl
    · rw [hone]
      rfl

/-! ## The history of some items -/

/-- What items contribute while they are reconciled one by one, where `f` tells what one item
contributes.  An item that is not accepted is the last one. -/
def along {α : Type} (f : Matcher → Item → List α) (m : Matcher) : List Item → List α
  | [] => []
  | i :: items =>
    f m i ++
      match m.reconcileOne i with
      | (m', none) => along f m' items
      | (_, some _) => []

theorem along_of_none {α : Type} (f : Matcher → Item → List α) {m m' : Matcher} {i : Item}
    (h : m.reconcileOne i = (m', none)) (items : List Item) :
    along f m (i :: items) = f m i ++ along f m' items := by
  rw [along, h]

theorem along_of_some {α : Type} (f : Matcher → Item → List α) {m m' : Matcher} {i : Item}
    {stop : Stop} (h : m.reconcileOne i = (m', some stop)) (items : List Item) :
    along f m (i :: items) = f m i := by
  rw [along, h, List.append_nil]

theorem takenFor_along (m : Matcher) (items : List Item) :
    m.pending = along takenFor m items ++
      (m.reconcile (items.map .item)).value.matcher.pending := by
  induction items generalizing m with
  | nil => rfl
  | cons i items ih =>
    have hone := takenFor_append m i
    cases hi : m.reconcileOne i with
    | mk m' stop =>
      rw [hi] at hone
      cases stop with
      | none =>
        rw [along_of_none takenFor hi, List.map_cons, reconcile_item_of_none hi,
          List.append_assoc, ← ih m', ← hone]
      | some stop =>
        rw [along_of_some takenFor hi, List.map_cons, reconcile_item_of_some hi]
        exact hone

theorem matched_along (m : Matcher) (items : List Item) :
    (m.reconcile (items.map .item)).value.matcher.matched =
      m.matched + (along acceptedFor m items).length := by
  induction items generalizing m with
  | nil => rfl
  | cons i items ih =>
    have hone := matched_reconcileOne m i
    cases hi : m.reconcileOne i with
    | mk m' stop =>
      rw [hi] at hone
      cases stop with
      | none =>
        rw [along_of_none acceptedFor hi, List.map_cons, reconcile_item_of_none hi, ih m',
          List.length_append, hone, Nat.add_assoc]
      | some stop =>
        rw [along_of_some acceptedFor hi, List.map_cons, reconcile_item_of_some hi]
        exact hone

theorem names_along (m : Matcher) (items : List Item) :
    ∃ extra, (along takenFor m items).map Declaration.name =
        (along acceptedFor m items).map Definition.name ++ extra ∧
      extra.length = wasted (m.reconcile (items.map .item)).value.stop := by
  induction items generalizing m with
  | nil => exact ⟨[], rfl, rfl⟩
  | cons i items ih =>
    obtain ⟨extra, hnames, hlength⟩ := names_takenFor m i
    cases hi : m.reconcileOne i with
    | mk m' stop =>
      rw [hi] at hlength
      cases stop with
      | none =>
        -- an accepted item wastes nothing, so what is wasted comes later
        obtain ⟨later, hlater, hlengthLater⟩ := ih m'
        have hnil : extra = [] := List.length_eq_zero_iff.1 hlength
        refine ⟨later, ?_, ?_⟩
        · rw [along_of_none takenFor hi, along_of_none acceptedFor hi, List.map_append,
            List.map_append, hnames, hlater, hnil, List.append_nil, List.append_assoc]
        · rw [List.map_cons, reconcile_item_of_none hi, hlengthLater]
      | some stop =>
        refine ⟨extra, ?_, ?_⟩
        · rw [along_of_some takenFor hi, along_of_some acceptedFor hi, hnames]
        · rw [List.map_cons, reconcile_item_of_some hi, hlength]
          rfl

/-- A matcher that takes no items leaves its history as it is. -/
theorem along_of_refused {m : Matcher} (hm : ¬ m.TakesItems) (items : List Item) :
    along takenFor m items = [] ∧ along acceptedFor m items = [] := by
  cases items with
  | nil => exact ⟨rfl, rfl⟩
  | cons i items =>
    have hone := reconcileOne_of_refused hm i
    rw [along_of_some takenFor hone, along_of_some acceptedFor hone]
    exact ⟨takenFor_of_refused hm i, acceptedFor_of_some (congrArg Prod.snd hone)⟩

/-! ## The history of a call -/

/-- The prototypes that a call puts in the queue: those among the items that a scan has
consumed. -/
def queuedBy (m : Matcher) : Call → List Declaration
  | .scan items =>
    let rest := (m.call (.scan items)).value.rest
    (items.take (items.length - rest.length)).filterMap Item.declaration?
  | _ => []

/-- The prototypes that leave the queue during a call, in the order in which they leave. -/
def takenBy (m : Matcher) (c : Call) : List Declaration := along takenFor m c.reconciled

/-- The compared bodies that a call accepts, in order. -/
def acceptedBy (m : Matcher) (c : Call) : List Definition := along acceptedFor m c.reconciled

theorem filterMap_declaration? (declared : List Declaration) :
    (declared.map Item.declaration).filterMap Item.declaration? = declared := by
  rw [List.filterMap_map]
  exact List.filterMap_some

/-- Only a matcher that is scanning queues anything. -/
theorem queuedBy_of_not_scanning {m : Matcher} (hm : m.phase ≠ .scanning) (c : Call) :
    m.queuedBy c = [] := by
  cases c with
  | scan items => simp [queuedBy, call_scan_of_refused hm]
  | reconcileOne i => rfl
  | reconcile items => rfl
  | finish => rfl

/-- A scan that stops before `rest` has consumed what comes before it. -/
theorem queuedBy_scan {m : Matcher} (consumed : List Item) {rest : List Item}
    (h : (m.call (.scan (consumed ++ rest))).value.rest = rest.map .item) :
    m.queuedBy (.scan (consumed ++ rest)) = consumed.filterMap Item.declaration? := by
  have hlength : (consumed ++ rest).length - (rest.map Find.item).length = consumed.length := by
    rw [List.length_append, List.length_map, Nat.add_sub_cancel]
  simp only [queuedBy]
  rw [h, hlength, List.take_left]

/-- A scan adds to the queue what it has consumed and does nothing else to it. -/
theorem step_scan (m : Matcher) (items : List Item) :
    (m.step (.scan items)).pending = m.pending ++ m.queuedBy (.scan items) ∧
      (m.step (.scan items)).matched = m.matched ∧
      wasted (m.call (.scan items)).value.stop = 0 := by
  by_cases hm : m.phase = .scanning
  · rcases prototypes_or_body items with ⟨declared, rfl⟩ | ⟨declared, d, rest, rfl⟩
    · have hcall := call_scan_of_prototypes hm declared
      have hqueued : m.queuedBy (.scan (declared.map .declaration)) = declared := by
        have hrest : (m.call (.scan (declared.map .declaration ++ []))).value.rest =
            ([] : List Item).map .item := by
          rw [List.append_nil, hcall]
          rfl
        have hqueue := queuedBy_scan (declared.map .declaration) hrest
        rwa [List.append_nil, filterMap_declaration?] at hqueue
      rw [step, hcall, hqueued]
      exact ⟨rfl, rfl, rfl⟩
    · have hcall := call_scan_of_body hm declared d rest
      have hqueued : m.queuedBy (.scan (declared.map .declaration ++ .definition d :: rest)) =
          declared := by
        rw [List.append_cons] at hcall ⊢
        rw [queuedBy_scan _ (by rw [hcall]), List.filterMap_append, filterMap_declaration?]
        exact List.append_nil declared
      rw [step, hcall, hqueued]
      exact ⟨rfl, rfl, rfl⟩
  · rw [queuedBy_of_not_scanning hm, step, call_scan_of_refused hm, List.append_nil]
    exact ⟨rfl, rfl, rfl⟩

/-- A finish takes nothing from the queue. -/
theorem step_finish (m : Matcher) :
    (m.step .finish).pending = m.pending ∧ (m.step .finish).matched = m.matched ∧
      wasted (m.call .finish).value.stop = 0 := by
  by_cases hm : m.phase = .violated
  · rw [step, call, finish, if_pos hm]
    exact ⟨rfl, rfl, rfl⟩
  · cases hp : m.pending[0]? with
    | none =>
      rw [step, call, finish_of_empty hm (by simpa using hp)]
      exact ⟨rfl, rfl, rfl⟩
    | some p =>
      rw [step, call, finish_of_pending hm hp]
      exact ⟨rfl, rfl, rfl⟩

/-- A call either reconciles its items or has none and changes the queue only by what it puts
there. -/
theorem step_cases (m : Matcher) (c : Call) :
    (m.step c = (m.reconcile (c.reconciled.map .item)).value.matcher ∧
        (m.call c).value.stop = (m.reconcile (c.reconciled.map .item)).value.stop ∧
        m.queuedBy c = []) ∨
      (c.reconciled = [] ∧ (m.step c).pending = m.pending ++ m.queuedBy c ∧
        (m.step c).matched = m.matched ∧ wasted (m.call c).value.stop = 0) := by
  cases c with
  | scan items => exact Or.inr ⟨rfl, step_scan m items⟩
  | reconcileOne i =>
    obtain ⟨hmatcher, hstop⟩ := call_reconcileOne m i
    exact Or.inl ⟨hmatcher, hstop, rfl⟩
  | reconcile items => exact Or.inl ⟨rfl, rfl, rfl⟩
  | finish =>
    obtain ⟨hpending, hrest⟩ := step_finish m
    refine Or.inr ⟨rfl, ?_, hrest⟩
    rw [hpending]
    exact (List.append_nil _).symm

/-- What waits before a call, and what the call adds, leaves during the call or waits after
it. -/
theorem pending_step (m : Matcher) (c : Call) :
    m.pending ++ m.queuedBy c = m.takenBy c ++ (m.step c).pending := by
  rcases step_cases m c with ⟨hstep, -, hqueued⟩ | ⟨hnone, hpending, -, -⟩
  · rw [hqueued, List.append_nil, hstep]
    exact takenFor_along m c.reconciled
  · rw [takenBy, hnone, hpending]
    rfl

theorem matched_step (m : Matcher) (c : Call) :
    (m.step c).matched = m.matched + (m.acceptedBy c).length := by
  rcases step_cases m c with ⟨hstep, -, -⟩ | ⟨hnone, -, hmatched, -⟩
  · rw [hstep]
    exact matched_along m c.reconciled
  · rw [acceptedBy, hnone, hmatched]
    rfl

theorem names_step (m : Matcher) (c : Call) :
    ∃ extra, (m.takenBy c).map Declaration.name =
        (m.acceptedBy c).map Definition.name ++ extra ∧
      extra.length = wasted (m.call c).value.stop := by
  rcases step_cases m c with ⟨-, hstop, -⟩ | ⟨hnone, -, -, hwasted⟩
  · rw [hstop]
    exact names_along m c.reconciled
  · refine ⟨[], ?_, hwasted.symm⟩
    rw [takenBy, acceptedBy, hnone]
    rfl

/-- What a call wastes can be told from what it reports. -/
theorem wasted_eq (m : Matcher) (c : Call) :
    wasted (m.call c).value.stop =
      (m.reportedBy c).countP fun v => v.kind = .fault .outOfOrder := by
  rw [reportedBy]
  cases (m.call c).value.stop with
  | none => rfl
  | some stop =>
    cases stop with
    | misuse misuse => rfl
    | violation v => simp [wasted, List.countP_singleton]

/-! ## The history of a lifetime -/

/-- What has been queued has left the queue, in order, or still waits. -/
theorem queued_eq (calls : List Call) :
    collect queuedBy fresh calls = collect takenBy fresh calls ++ (fresh.run calls).pending := by
  induction calls using List.reverseRecOn with
  | nil => rfl
  | append_singleton calls c ih =>
    rw [collect_snoc, collect_snoc, run_snoc, ih, List.append_assoc, pending_step,
      List.append_assoc]

theorem matched_eq (calls : List Call) :
    (fresh.run calls).matched = (collect acceptedBy fresh calls).length := by
  induction calls using List.reverseRecOn with
  | nil => rfl
  | append_singleton calls c ih =>
    rw [collect_snoc, run_snoc, matched_step, List.length_append, ih]

/-- The prototypes that have left the queue have the names of the accepted bodies, but for the
last one if a body was out of order. -/
theorem names_taken (calls : List Call) :
    ∃ extra, (collect takenBy fresh calls).map Declaration.name =
        (collect acceptedBy fresh calls).map Definition.name ++ extra ∧
      extra.length =
        (collect reportedBy fresh calls).countP fun v => v.kind = .fault .outOfOrder := by
  induction calls using List.reverseRecOn with
  | nil => exact ⟨[], rfl, rfl⟩
  | append_singleton calls c ih =>
    obtain ⟨extra, hnames, hlength⟩ := ih
    obtain ⟨later, hlater, hlengthLater⟩ := names_step (fresh.run calls) c
    rw [wasted_eq] at hlengthLater
    rw [collect_snoc, collect_snoc, collect_snoc, List.map_append, List.map_append, hnames,
      List.countP_append]
    by_cases hphase : (fresh.run calls).phase = .violated
    · -- nothing more is taken, accepted or reported
      have hrefused := along_of_refused (not_takesItems (Or.inr hphase)) c.reconciled
      have hreported : (fresh.run calls).reportedBy c = [] := by
        rw [← List.length_eq_zero_iff, length_reportedBy, if_neg (by simp [hphase])]
      refine ⟨extra, ?_, ?_⟩
      · rw [takenBy, acceptedBy, hrefused.1, hrefused.2]
        simp
      · rw [hreported, hlength]
        rfl
    · -- nothing has been reported, so nothing has been wasted so far
      have hreported : collect reportedBy fresh calls = [] := by
        rw [← List.length_eq_zero_iff, length_reported, if_neg hphase]
      have hnil : extra = [] := by
        rw [hreported] at hlength
        exact List.length_eq_zero_iff.1 hlength
      refine ⟨later, ?_, ?_⟩
      · rw [hlater, hnil, List.append_nil, List.append_assoc]
      · rw [hreported, hlengthLater, List.countP_nil, Nat.zero_add]

/-- Once a matcher has stopped scanning, its queue only gives out. -/
theorem pending_suffix {calls : List Call} (h : (fresh.run calls).phase ≠ .scanning)
    (more : List Call) : (fresh.run (calls ++ more)).pending <:+ (fresh.run calls).pending := by
  induction more using List.reverseRecOn with
  | nil => simp
  | append_singleton more c ih =>
    rw [← List.append_assoc, run_snoc]
    have hphase : (fresh.run (calls ++ more)).phase ≠ .scanning := by
      intro hscanning
      rcases phase_run calls more with hsame | hleads
      · exact h (hsame.trans hscanning)
      · exact hleads.ne_scanning hscanning
    have hstep := pending_step (fresh.run (calls ++ more)) c
    rw [queuedBy_of_not_scanning hphase, List.append_nil] at hstep
    exact List.IsSuffix.trans ⟨_, hstep.symm⟩ ih

/-- **Nothing is lost in the queue.**  Any calls are made on a fresh matcher, one after the
other, whatever comes of each.

* The prototypes that scans have queued are those that have left the queue, in the order in
  which they left, followed by those that wait.
* As many have left as bodies have been matched, or one more; it is one more exactly if the
  matcher has reported a body out of order.
* The first prototypes that were queued have, in order, the names of the accepted bodies.
* Once the matcher has stopped scanning, what waits is only ever shortened from the front.
* When the matcher is done no prototype waits, and all that were queued have been matched. -/
theorem lifetime_conserves (calls : List Call) :
    let m := fresh.run calls
    let queued := collect queuedBy fresh calls
    let taken := collect takenBy fresh calls
    let accepted := collect acceptedBy fresh calls
    let reported := collect reportedBy fresh calls
    queued = taken ++ m.pending ∧
    (taken.length = m.matched ∨ taken.length = m.matched + 1) ∧
    (taken.length = m.matched + 1 ↔
      m.phase = .violated ∧ ∃ v ∈ reported, v.kind = .fault .outOfOrder) ∧
    (queued.take m.matched).map Declaration.name = accepted.map Definition.name ∧
    (m.phase ≠ .scanning → ∀ more, (fresh.run (calls ++ more)).pending <:+ m.pending) ∧
    (m.phase = .done → m.pending = [] ∧ m.matched = queued.length) := by
  intro m queued taken accepted reported
  have hqueued : queued = taken ++ m.pending := queued_eq calls
  have hmatched : m.matched = accepted.length := matched_eq calls
  obtain ⟨extra, hnames, hextra⟩ := names_taken calls
  have htaken : taken.length = m.matched + extra.length := by
    have hlength := congrArg List.length hnames
    rw [List.length_map, List.length_append, List.length_map] at hlength
    rw [hmatched]
    exact hlength
  have hreported : reported.length = if m.phase = .violated then 1 else 0 :=
    length_reported calls
  have hcount : extra.length ≤ reported.length := by
    rw [hextra]
    exact List.countP_le_length
  have hsome : 0 < extra.length ↔ ∃ v ∈ reported, v.kind = .fault .outOfOrder := by
    rw [hextra, List.countP_pos_iff]
    simp [reported]
  refine ⟨hqueued, ?_, ?_, ?_, pending_suffix, ?_⟩
  · split at hreported
    · omega
    · omega
  · rw [← hsome]
    -- in any other phase nothing has been reported, so nothing has been wasted
    by_cases hphase : m.phase = .violated
    · rw [if_pos hphase] at hreported
      constructor
      · intro h
        exact ⟨hphase, by omega⟩
      · rintro ⟨-, hpos⟩
        omega
    · rw [if_neg hphase] at hreported
      constructor
      · intro h
        omega
      · rintro ⟨h, -⟩
        exact absurd h hphase
  · rw [hqueued, List.take_append_of_le_length (by omega), List.map_take, hnames,
      List.take_left' (by rw [List.length_map, hmatched])]
  · intro hdone
    have hpending : m.pending = [] := coherent_run calls hdone
    rw [if_neg (by simp [hdone])] at hreported
    refine ⟨hpending, ?_⟩
    rw [hqueued, hpending, List.append_nil]
    omega

/-- Prototypes `a`, `b` and bodies `a`, `c`, then a scan that is refused: both prototypes have
left the queue and one of them has been matched. -/
theorem lifetime_conserves_swapped :
    let place (row : Int) : Location := ⟨row, 4, "f.h", ""⟩
    let prototype (name : String) : Declaration := ⟨name, place 0, none⟩
    let body (name : String) : Item := .definition ⟨name, place 1, false⟩
    let calls : List Call :=
      [.scan [.declaration (prototype "a")], .scan [.declaration (prototype "b")],
        .reconcile [body "a", body "c", body "b"], .scan [.declaration (prototype "d")]]
    let m := fresh.run calls
    m.phase ≠ .scanning ∧ m.matched = 1 ∧
      collect takenBy fresh calls = [prototype "a", prototype "b"] ∧
      (∃ v ∈ collect reportedBy fresh calls, v.kind = .fault .outOfOrder) ∧
      ∀ more, (fresh.run (calls ++ more)).pending <:+ m.pending := by
  intro place prototype body calls m
  have hphase : m.phase ≠ .scanning := by decide
  have hmatched : m.matched = 1 := by decide
  have htaken : collect takenBy fresh calls = [prototype "a", prototype "b"] := by decide
  obtain ⟨-, -, hwasted, -, hsuffix, -⟩ := lifetime_conserves calls
  refine ⟨hphase, hmatched, htaken, ?_, hsuffix hphase⟩
  exact (hwasted.1 (by rw [htaken]; exact congrArg (· + 1) hmatched.symm)).2

end Matcher

end PrototypeOrder
