/-
# A walk, round by round

A walk is a loop.  In each round it visits the place it stands at, unless it has come back to that
place from below, and then tries to move down, to the right and up.  The loop ends in the round in
which no move is possible; nothing else bounds it.

* `Moves`, `Round` : the moves that are tried, and what a round begins with;
* `Moves.Leads`, `Moves.Ends` : runs of some rounds, and runs that come to an end;
* `Moves.Ends.unique` : a walk that ends does so in one way;
* `Moves.Leads.follow` : where two kinds of places allow the same moves, two walks go the same way;
* `Cursor.walk_of_ends` : a walk of a cursor that ends is what `Cursor.walk` gives whenever it is
  allowed as many steps as there are rounds.
-/
import Mathlib.Data.List.Forall2
import PrototypeOrder.Source.Cursor

namespace PrototypeOrder

/-- The moves that a walk may try.  Each leads from a place to another one or is not possible
there. -/
structure Moves (σ : Type) where
  firstChild? : σ → Option σ
  nextSibling? : σ → Option σ
  parent? : σ → Option σ

/-- What a round of a walk begins with: the place the walk stands at, and whether it has come
back there from below. -/
structure Round (σ : Type) where
  place : σ
  visited : Bool

namespace Round

variable {σ τ : Type}

/-- A round at a place that is come to from above or from the left. -/
def enter (p : σ) : Round σ := ⟨p, false⟩

/-- A round at a place that is come back to from below. -/
def back (p : σ) : Round σ := ⟨p, true⟩

/-- The place that a round visits, if any. -/
def visits (r : Round σ) : List σ := if r.visited then [] else [r.place]

/-- Two rounds that begin alike, at places that stand for one another. -/
structure Alike (R : σ → τ → Prop) (r : Round σ) (s : Round τ) : Prop where
  place : R r.place s.place
  visited : r.visited = s.visited

theorem Alike.enter {R : σ → τ → Prop} {p : σ} {q : τ} (h : R p q) :
    (Round.enter p).Alike R (Round.enter q) :=
  ⟨h, rfl⟩

theorem Alike.back {R : σ → τ → Prop} {p : σ} {q : τ} (h : R p q) :
    (Round.back p).Alike R (Round.back q) :=
  ⟨h, rfl⟩

theorem Alike.forall₂_visits {R : σ → τ → Prop} {r : Round σ} {s : Round τ} (h : r.Alike R s) :
    List.Forall₂ R r.visits s.visits := by
  unfold visits
  rw [← h.visited]
  cases r.visited with
  | true => exact .nil
  | false => exact .cons h.place .nil

end Round

namespace Moves

variable {σ τ : Type} {m : Moves σ} {m' : Moves τ} {R : σ → τ → Prop}
variable {o o' last : Option (Round σ)} {visits visits' : List σ} {k j : Nat}

/-- The round after a place below which nothing is left to visit: to the right, or else up. -/
def leave? (m : Moves σ) (p : σ) : Option (Round σ) :=
  ((m.nextSibling? p).map .enter).or ((m.parent? p).map .back)

/-- The round after a round: the first move that is possible.  It is not tried to go down from a
place that is come back to. -/
def next? (m : Moves σ) (r : Round σ) : Option (Round σ) :=
  if r.visited then m.leave? r.place
  else ((m.firstChild? r.place).map .enter).or (m.leave? r.place)

theorem leave?_of_sibling {p q : σ} (h : m.nextSibling? p = some q) :
    m.leave? p = some (.enter q) := by
  rw [leave?, h]
  rfl

theorem leave?_of_last {p q : σ} (h : m.nextSibling? p = none) (hparent : m.parent? p = some q) :
    m.leave? p = some (.back q) := by
  rw [leave?, h, hparent]
  rfl

theorem leave?_of_top {p : σ} (h : m.nextSibling? p = none) (hparent : m.parent? p = none) :
    m.leave? p = none := by
  rw [leave?, h, hparent]
  rfl

theorem next?_enter_of_child {p q : σ} (h : m.firstChild? p = some q) :
    m.next? (.enter p) = some (.enter q) := by
  show ((m.firstChild? p).map Round.enter).or (m.leave? p) = _
  rw [h]
  rfl

theorem next?_enter_of_childless {p : σ} (h : m.firstChild? p = none) :
    m.next? (.enter p) = m.leave? p := by
  show ((m.firstChild? p).map Round.enter).or (m.leave? p) = _
  rw [h]
  rfl

/-! ## Runs -/

/-- Some rounds, one after the other: the places that they visit, their number and the round that
they lead to.  `none` is the end of the loop. -/
inductive Leads (m : Moves σ) : Option (Round σ) → List σ → Nat → Option (Round σ) → Prop
  | here (o : Option (Round σ)) : Leads m o [] 0 o
  | round {r : Round σ} {visits : List σ} {k : Nat} {last : Option (Round σ)}
      (rest : Leads m (m.next? r) visits k last) :
      Leads m (some r) (r.visits ++ visits) (k + 1) last

/-- The loop that begins with a round comes to its end after some rounds. -/
def Ends (m : Moves σ) (r : Round σ) (visits : List σ) (rounds : Nat) : Prop :=
  m.Leads (some r) visits rounds none

theorem Leads.trans (h : m.Leads o visits k o') (h' : m.Leads o' visits' j last) :
    m.Leads o (visits ++ visits') (j + k) last := by
  induction h with
  | here o => exact h'
  | round rest ih =>
    rw [List.append_assoc]
    exact .round (ih h')

/-- The round that enters a place. -/
theorem Leads.enter {p : σ} (rest : m.Leads (m.next? (.enter p)) visits k last) :
    m.Leads (some (.enter p)) (p :: visits) (k + 1) last :=
  Leads.round (r := .enter p) rest

/-- The round that comes back to a place. -/
theorem Leads.back {p : σ} (rest : m.Leads (m.leave? p) visits k last) :
    m.Leads (some (.back p)) visits (k + 1) last :=
  Leads.round (r := .back p) rest

/-- From where a loop begins there is one way to its end. -/
theorem Leads.unique (h : m.Leads o visits k none) (h' : m.Leads o visits' j none) :
    visits = visits' ∧ k = j := by
  generalize hlast : (none : Option (Round σ)) = last at h
  induction h generalizing visits' j with
  | here o =>
    subst hlast
    cases h'
    exact ⟨rfl, rfl⟩
  | round rest ih =>
    cases h' with
    | round rest' =>
      obtain ⟨hvisits, hrounds⟩ := ih rest' hlast
      rw [hvisits, hrounds]
      exact ⟨rfl, rfl⟩

theorem Ends.unique {r : Round σ} (h : m.Ends r visits k) (h' : m.Ends r visits' j) :
    visits = visits' ∧ k = j :=
  Leads.unique h h'

/-! ## Two walks that go the same way -/

/-- Places that stand for one another allow the same moves, and these lead to places that stand for
one another. -/
structure FollowedBy (m : Moves σ) (m' : Moves τ) (R : σ → τ → Prop) : Prop where
  firstChild : ∀ p q, R p q → Option.Rel R (m.firstChild? p) (m'.firstChild? q)
  nextSibling : ∀ p q, R p q → Option.Rel R (m.nextSibling? p) (m'.nextSibling? q)
  parent : ∀ p q, R p q → Option.Rel R (m.parent? p) (m'.parent? q)

theorem rel_map {x : Option σ} {y : Option τ} {f : σ → Round σ} {g : τ → Round τ}
    (hround : ∀ {p q}, R p q → (f p).Alike R (g q)) (h : Option.Rel R x y) :
    Option.Rel (Round.Alike R) (x.map f) (y.map g) := by
  cases h with
  | none => exact .none
  | some hpq => exact .some (hround hpq)

theorem rel_or {x rest : Option (Round σ)} {y rest' : Option (Round τ)}
    (h : Option.Rel (Round.Alike R) x y) (hrest : Option.Rel (Round.Alike R) rest rest') :
    Option.Rel (Round.Alike R) (x.or rest) (y.or rest') := by
  cases h with
  | none => exact hrest
  | some hpq => exact .some hpq

theorem FollowedBy.leave (h : m.FollowedBy m' R) {p : σ} {q : τ} (hpq : R p q) :
    Option.Rel (Round.Alike R) (m.leave? p) (m'.leave? q) :=
  rel_or (rel_map .enter (h.nextSibling p q hpq)) (rel_map .back (h.parent p q hpq))

theorem FollowedBy.next (h : m.FollowedBy m' R) {r : Round σ} {s : Round τ} (hrs : r.Alike R s) :
    Option.Rel (Round.Alike R) (m.next? r) (m'.next? s) := by
  unfold next?
  rw [← hrs.visited]
  cases r.visited with
  | true => exact h.leave hrs.place
  | false => exact rel_or (rel_map .enter (h.firstChild _ _ hrs.place)) (h.leave hrs.place)

/-- Two walks that begin alike go the same way: one visits places that stand for those the other
visits, and it takes as many rounds. -/
theorem Leads.follow (hm : m.FollowedBy m' R) (h : m.Leads o visits k last) {p : Option (Round τ)}
    (hop : Option.Rel (Round.Alike R) o p) :
    ∃ visits' last', m'.Leads p visits' k last' ∧ List.Forall₂ R visits visits' ∧
      Option.Rel (Round.Alike R) last last' := by
  induction h generalizing p with
  | here o => exact ⟨[], p, .here p, .nil, hop⟩
  | round rest ih =>
    cases hop with
    | some hrs =>
      obtain ⟨visits', last', hleads, hvisits, hlast⟩ := ih (hm.next hrs)
      exact ⟨_, last', .round hleads, List.rel_append hrs.forall₂_visits hvisits, hlast⟩

/-- A walk ends where one that goes the same way ends. -/
theorem Ends.follow (hm : m.FollowedBy m' R) {p : σ} (h : m.Ends (.enter p) visits k) {q : τ}
    (hpq : R p q) :
    ∃ visits', m'.Ends (.enter q) visits' k ∧ List.Forall₂ R visits visits' := by
  obtain ⟨visits', last', hleads, hvisits, hlast⟩ := Leads.follow hm h (.some (.enter hpq))
  cases hlast with
  | none => exact ⟨visits', hleads, hvisits⟩

end Moves

/-! ## The walk of a cursor -/

namespace Cursor

/-- The moves of a cursor. -/
def moves : Moves Cursor := ⟨firstChild?, nextSibling?, parent?⟩

/-- The nodes that `walk` comes to from a round on, or from the end of the loop. -/
def walkFrom (fuel : Nat) (o : Option (Round Cursor)) : List Node :=
  o.elim [] fun r => walk fuel r.place r.visited

/-- The step of `walk` that leaves a node. -/
theorem walk_back (fuel : Nat) (c : Cursor) :
    walk (fuel + 1) c true = walkFrom fuel (moves.leave? c) := by
  rw [walk]
  cases h : c.nextSibling? with
  | some d =>
    rw [Moves.leave?_of_sibling (m := moves) h]
    rfl
  | none =>
    cases hparent : c.parent? with
    | some d =>
      rw [Moves.leave?_of_last (m := moves) h hparent]
      rfl
    | none =>
      rw [Moves.leave?_of_top (m := moves) h hparent]
      rfl

/-- The step of `walk` that comes to a node. -/
theorem walk_enter (fuel : Nat) (c : Cursor) :
    walk (fuel + 1) c false = c.node :: walkFrom fuel (moves.next? (.enter c)) := by
  rw [walk]
  cases h : c.firstChild? with
  | some d =>
    rw [Moves.next?_enter_of_child (m := moves) h]
    rfl
  | none =>
    rw [Moves.next?_enter_of_childless (m := moves) h, ← walk_back]
    rfl

/-- A step of `walk` is a round of the loop. -/
theorem walkFrom_round (fuel : Nat) (r : Round Cursor) :
    walkFrom (fuel + 1) (some r) = r.visits.map node ++ walkFrom fuel (moves.next? r) := by
  obtain ⟨c, visited⟩ := r
  cases visited with
  | true => exact walk_back fuel c
  | false => exact walk_enter fuel c

theorem walkFrom_of_leads {o : Option (Round Cursor)} {visits : List Cursor} {k fuel : Nat}
    (h : moves.Leads o visits k none) (hfuel : k ≤ fuel) :
    walkFrom fuel o = visits.map node := by
  generalize hlast : (none : Option (Round Cursor)) = last at h
  induction h generalizing fuel with
  | here o => rw [← hlast]; rfl
  | round rest ih =>
    obtain ⟨fuel, rfl⟩ := Nat.exists_eq_add_of_le' hfuel
    rw [← Nat.add_assoc, walkFrom_round, ih (by omega) hlast, List.map_append]

/-- If the loop comes to its end, then `walk` gives the nodes that the loop visits, and it is not
cut short if it is allowed a step for each round. -/
theorem walk_of_ends {r : Round Cursor} {visits : List Cursor} {k fuel : Nat}
    (h : moves.Ends r visits k) (hfuel : k ≤ fuel) :
    walk fuel r.place r.visited = visits.map node :=
  walkFrom_of_leads h hfuel

end Cursor

end PrototypeOrder
