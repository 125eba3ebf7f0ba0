/-
# Matching bodies against prototypes

A matcher holds the prototypes that still wait for their body, in the order they were
met.  It first scans prototypes; from the first body on it reconciles: each body that is
not exempt has to name the function at the front of the queue.  A body never matches a
later prototype, so both lists have to be in the same order.

A file is read lazily: the matcher is given what the reading comes across (`Find`), and
passing over a body without a name leaves a record only when the matcher gets there.
-/
import PrototypeOrder.Order.Event
import PrototypeOrder.Order.Violation

namespace PrototypeOrder

/-- Where a matcher is in its life. -/
inductive Phase where
  /-- filling the queue -/
  | scanning
  /-- every further item has to be a body that matches the front of the queue -/
  | reconciling
  /-- all has been matched -/
  | done
  /-- a violation has been reported, and no more input is taken -/
  | violated
deriving DecidableEq, Repr

/-- The name of a phase. -/
def Phase.name : Phase → String
  | scanning => "scanning"
  | reconciling => "reconciling"
  | done => "done"
  | violated => "violated"

/-- A call that the matcher refuses because of the phase it is in. -/
inductive Misuse where
  | wrongPhase (actual expected : Phase)
  | alreadyViolated
deriving DecidableEq, Repr

/-- What a refused call is told. -/
def Misuse.message : Misuse → String
  | wrongPhase actual expected => s!"matcher is {actual.name}, expected {expected.name}"
  | alreadyViolated => "matcher already reported a violation"

/-- Why a call did not succeed. -/
inductive Stop where
  | violation (v : Violation)
  | misuse (m : Misuse)
deriving DecidableEq, Repr

/-- The prototypes waiting for their body, the phase, and the number of bodies matched. -/
structure Matcher where
  pending : List Declaration
  phase : Phase
  matched : Nat
deriving DecidableEq, Repr

namespace Matcher

/-- A matcher that has seen nothing. -/
def fresh : Matcher := ⟨[], .scanning, 0⟩

/-- What a call leaves: the matcher afterwards, why the call did not succeed if it did
not, and what it has not consumed. -/
structure Reply where
  matcher : Matcher
  stop : Option Stop
  rest : List Find
deriving DecidableEq, Repr

/-- What a scan leaves; `first` is the body it ended at. -/
structure ScanReply extends Reply where
  first : Option Definition
deriving DecidableEq, Repr

/-- The matcher after it has reported a violation. -/
def violate (m : Matcher) : Matcher := { m with phase := .violated }

/-! ## Scanning prototypes -/

/-- Queues prototypes up to the first body. -/
def scanFrom (m : Matcher) : List Find → Logged ScanReply
  | [] => .pure ⟨⟨m, none, []⟩, none⟩
  | .nameless file row :: rest => (scanFrom m rest).after (.skipped file row)
  | .item (.declaration d) :: rest => scanFrom { m with pending := m.pending ++ [d] } rest
  | .item (.definition d) :: rest =>
    Logged.after (.firstDefinition d m.pending.length)
      (.pure ⟨⟨{ m with phase := .reconciling }, none, rest⟩, some d⟩)

/-- Queues prototypes up to and including the first body, which ends the scan.  Only a
matcher that is scanning does so; any other consumes nothing. -/
def scan (m : Matcher) (finds : List Find) : Logged ScanReply :=
  if m.phase = .scanning then m.scanFrom finds
  else .pure ⟨⟨m, some (.misuse (.wrongPhase m.phase .scanning)), finds⟩, none⟩

/-! ## Reconciling bodies -/

/-- A body that is not exempt takes the front of the queue, which has to have its name. -/
def matchFront (m : Matcher) (d : Definition) : Matcher × Option Stop :=
  match m.pending with
  | [] => (m.violate, some (.violation (.located .undeclaredDefinition [d.location])))
  | front :: rest =>
    if front.name = d.name then ({ m with pending := rest, matched := m.matched + 1 }, none)
    else
      ({ m with pending := rest, phase := .violated },
        some (.violation (.located .outOfOrder [front.location, d.location])))

/-- Takes one item; a matcher that is still scanning stops to do so. -/
def reconcileOne (m : Matcher) (i : Item) : Matcher × Option Stop :=
  if m.phase = .scanning ∨ m.phase = .reconciling then
    let m := { m with phase := .reconciling }
    match i with
    | .declaration d =>
      (m.violate, some (.violation (.located .unexpectedDeclaration [d.blame])))
    | .definition d => if d.isExempt then (m, none) else m.matchFront d
  else (m, some (.misuse (.wrongPhase m.phase .reconciling)))

/-- Takes items until one is not accepted; that one is consumed. -/
def reconcile (m : Matcher) : List Find → Logged Reply
  | [] => .pure ⟨m, none, []⟩
  | .nameless file row :: rest => (reconcile m rest).after (.skipped file row)
  | .item i :: rest =>
    match m.reconcileOne i with
    | (m, none) => reconcile m rest
    | (m, some stop) => .pure ⟨m, some stop, rest⟩

/-! ## Finishing -/

/-- Reports a prototype that still waits for its body. -/
def finish (m : Matcher) : Logged Reply :=
  if m.phase = .violated then .pure ⟨m, some (.misuse .alreadyViolated), []⟩
  else
    match m.pending with
    | front :: _ =>
      .pure ⟨m.violate, some (.violation (.located .undefinedDeclaration [front.location])), []⟩
    | [] => Logged.after (.matched m.matched) (.pure ⟨{ m with phase := .done }, none, []⟩)

/-! ## Calls -/

/-- A use of a matcher. -/
inductive Call where
  | scan (items : List Item)
  | reconcileOne (item : Item)
  | reconcile (items : List Item)
  | finish
deriving DecidableEq, Repr

/-- A call made on a matcher. -/
def call (m : Matcher) : Call → Logged ScanReply
  | .scan items => m.scan (items.map .item)
  | .reconcileOne i => .pure ⟨⟨(m.reconcileOne i).1, (m.reconcileOne i).2, []⟩, none⟩
  | .reconcile items =>
    let r := m.reconcile (items.map .item)
    ⟨r.log, ⟨r.value, none⟩⟩
  | .finish => ⟨m.finish.log, ⟨m.finish.value, none⟩⟩

end Matcher

end PrototypeOrder
