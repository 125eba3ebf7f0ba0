/-
# A whole lifetime under other names

A matcher is called any number of times, and then once more from the beginning with other names
of functions and other places in all the items.  Call by call the second lifetime is the first
one with the names and places exchanged: nothing that a matcher decides depends on more than
which names are equal and which one is the entry point, and nothing at all on places.

* `Matcher.call_rename` : one call;
* `Matcher.collect_rename` : calls one after the other;
* `Matcher.sameBut_rename` : what a renamed reply has in common with the reply.
-/
import Mathlib.Data.List.Forall2
import Mathlib.Logic.Equiv.Basic
import PrototypeOrder.Proofs.Lifetime
import PrototypeOrder.Proofs.Renaming

namespace PrototypeOrder

namespace Matcher

variable (r : Renaming)

/-- A call with renamed items. -/
def Call.rename : Call → Call
  | .scan items => .scan (items.map (Item.rename r))
  | .reconcileOne i => .reconcileOne (i.rename r)
  | .reconcile items => .reconcile (items.map (Item.rename r))
  | .finish => .finish

/-! ## One call -/

theorem map_item_rename (items : List Item) :
    (items.map (Item.rename r)).map Find.item = (items.map Find.item).map (Find.rename r) := by
  rw [List.map_map, List.map_map]
  rfl

/-- A renamed call on a renamed matcher leaves what the call has left, renamed. -/
theorem call_rename (m : Matcher) (c : Call) :
    ((m.rename r).call (c.rename r)).value = (m.call c).value.rename r := by
  cases c with
  | scan items =>
    rw [Call.rename, call, map_item_rename, scan_rename]
    rfl
  | reconcileOne i =>
    simp only [Call.rename, call, reconcileOne_rename]
    rfl
  | reconcile items =>
    simp only [Call.rename, call, map_item_rename, reconcile_rename]
    rfl
  | finish =>
    simp only [Call.rename, call, finish_rename]
    rfl

theorem step_rename (m : Matcher) (c : Call) :
    (m.rename r).step (c.rename r) = (m.step c).rename r := by
  rw [step, call_rename]
  rfl

/-! ## Calls one after the other -/

/-- If what one call contributes is renamed with the matcher and the call, so is what many calls
contribute. -/
theorem collect_rename {α : Type} {f : Matcher → Call → List α} {g : α → α}
    (hf : ∀ m c, f (m.rename r) (c.rename r) = (f m c).map g) (m : Matcher)
    (calls : List Call) :
    collect f (m.rename r) (calls.map (Call.rename r)) = (collect f m calls).map g := by
  induction calls generalizing m with
  | nil => rfl
  | cons c calls ih =>
    rw [List.map_cons, collect, collect, hf, step_rename, ih, List.map_append]

/-- What comes of each of the calls, in order. -/
def replies (m : Matcher) (calls : List Call) : List ScanReply :=
  collect (fun m c => [(m.call c).value]) m calls

theorem replies_rename (m : Matcher) (calls : List Call) :
    replies (m.rename r) (calls.map (Call.rename r)) =
      (replies m calls).map (ScanReply.rename r) := by
  refine collect_rename r ?_ m calls
  intro m c
  rw [call_rename, List.map_singleton]

/-! ## What the second lifetime has in common with the first -/

/-- Two calls end alike: both succeed, or both are refused for the same reason, or both report a
violation of the same kind, the second one at the places where `place` puts those of the
first. -/
inductive EndsAlike (place : Location → Location) : Option Stop → Option Stop → Prop where
  | succeeds : EndsAlike place none none
  | refused (misuse : Misuse) : EndsAlike place (some (.misuse misuse)) (some (.misuse misuse))
  | reports {v v' : Violation} (hkind : v'.kind = v.kind)
      (hplaces : v'.locations = v.locations.map place) :
      EndsAlike place (some (.violation v)) (some (.violation v'))

/-- Two calls leave the same but for the names and places: the phase and the number of matched
bodies, what waits in the queue, how the call ended, what it has not consumed, and the body a
scan ended at. -/
structure SameBut (reply reply' : ScanReply) : Prop where
  phase : reply'.matcher.phase = reply.matcher.phase
  matched : reply'.matcher.matched = reply.matcher.matched
  pending : reply'.matcher.pending = reply.matcher.pending.map (Declaration.rename r)
  ends : EndsAlike r.place reply.stop reply'.stop
  rest : reply'.rest = reply.rest.map (Find.rename r)
  first : reply'.first = reply.first.map (Definition.rename r)

theorem endsAlike_rename (stop : Option Stop) :
    EndsAlike r.place stop (stop.map (Stop.rename r)) := by
  cases stop with
  | none => exact .succeeds
  | some stop =>
    cases stop with
    | misuse misuse => exact .refused misuse
    | violation v =>
      cases v with
      | located fault places => exact .reports rfl rfl
      | emptyFile file => exact .reports rfl rfl

theorem sameBut_rename (reply : ScanReply) : SameBut r reply (reply.rename r) :=
  ⟨rfl, rfl, rfl, endsAlike_rename r reply.stop, rfl, rfl⟩

/-- **Names up to renaming, and no places.**  Any calls are made on a fresh matcher, whatever comes
of each.  The same calls with renamed items are made on another one, where the renaming keeps
different names different and the entry point apart, and moves places at will.  Then each call
ends as before and leaves the same, but for the names and places. -/
theorem lifetime_renamed (calls : List Call) :
    List.Forall₂ (SameBut r) (replies fresh calls)
      (replies fresh (calls.map (Call.rename r))) := by
  have hreplies := replies_rename r fresh calls
  rw [rename_fresh] at hreplies
  rw [hreplies, List.forall₂_map_right_iff, List.forall₂_same]
  intro reply _
  exact sameBut_rename r reply

/-- The names `a` and `b` change places, and all places become one.  The body `b` after the
prototype `a` is reported, and so is the body `a` after the prototype `b`, twice at the one place
that is left. -/
theorem lifetime_renamed_exchanged :
    let place (row : Int) : Location := ⟨row, 4, "f.h", ""⟩
    let calls (a b : String) (row : Int) : List Call :=
      [.scan [.declaration ⟨a, place 0, none⟩],
        .reconcileOne (.definition ⟨b, place row, false⟩), .finish]
    ∃ r : Renaming, (∀ l, r.place l = place 0) ∧
      (calls "a" "b" 1).map (Call.rename r) = calls "b" "a" 0 ∧
      List.Forall₂ (SameBut r) (replies fresh (calls "a" "b" 1))
        (replies fresh (calls "b" "a" 0)) := by
  intro place calls
  let r : Renaming :=
    { name := Equiv.swap "a" "b"
      place := fun _ => place 0
      file := id
      name_inj := fun _ _ h => (Equiv.swap "a" "b").injective h
      name_eq_entryPoint_iff := fun x => by
        rw [← Equiv.eq_symm_apply, Equiv.symm_swap,
          Equiv.swap_apply_of_ne_of_ne (by decide) (by decide)] }
  have hcalls : (calls "a" "b" 1).map (Call.rename r) = calls "b" "a" 0 := by decide
  exact ⟨r, fun _ => rfl, hcalls, hcalls ▸ lifetime_renamed r (calls "a" "b" 1)⟩

end Matcher

end PrototypeOrder
