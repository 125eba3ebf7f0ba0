/-
# Nodes by their addresses

Two nodes of a tree may look alike and still be different nodes.  What tells them apart is where
they are: the address of a node is the way from the root down to it, as the indices of the children
that are taken.

* `Node.nodeAt?` : the node at an address;
* `Node.located` : the pre-order, each node with its address;
* `Node.map_snd_located`, `Node.mem_located_iff`, `Node.nodup_located` : these are the nodes of the
  pre-order, the addresses lead to them, and no address occurs twice.
-/
import Mathlib.Data.List.Nodup
import PrototypeOrder.Proofs.ItemNodes

namespace PrototypeOrder

/-- The way down from the root of a tree: the index of the child that is taken, step by step. -/
abbrev Address := List Nat

namespace Node

/-- The node at an address, unless the address leads out of the tree. -/
def nodeAt? (t : Node) : Address → Option Node
  | [] => some t
  | k :: rest => t.children[k]?.bind fun c => c.nodeAt? rest

@[simp]
theorem nodeAt?_nil (t : Node) : t.nodeAt? [] = some t := rfl

theorem nodeAt?_cons (t : Node) (k : Nat) (rest : Address) :
    t.nodeAt? (k :: rest) = t.children[k]?.bind fun c => c.nodeAt? rest := rfl

theorem nodeAt?_cons_eq_some_iff {t n : Node} {k : Nat} {rest : Address} :
    t.nodeAt? (k :: rest) = some n ↔ ∃ c, t.children[k]? = some c ∧ c.nodeAt? rest = some n := by
  rw [nodeAt?_cons, Option.bind_eq_some_iff]

/-- An address that goes on leads on from the node it comes to. -/
theorem nodeAt?_append (t : Node) (a b : Address) :
    t.nodeAt? (a ++ b) = (t.nodeAt? a).bind fun n => n.nodeAt? b := by
  induction a generalizing t with
  | nil => rfl
  | cons k a ih =>
    rw [List.cons_append, nodeAt?_cons, nodeAt?_cons]
    cases t.children[k]? with
    | none => rfl
    | some c => exact ih c

/-! ## The pre-order with addresses -/

mutual

/-- A node and all nodes below it in pre-order, each with its address. -/
def located : Node → List (Address × Node)
  | mk tag cs => ([], mk tag cs) :: locatedAll 0 cs

/-- The same for some siblings, the first of which has the index `k`. -/
def locatedAll (k : Nat) : List Node → List (Address × Node)
  | [] => []
  | c :: cs => (located c).map (fun s => (k :: s.1, s.2)) ++ locatedAll (k + 1) cs

end

theorem locatedAll_eq_flatMap (k : Nat) (cs : List Node) :
    locatedAll k cs =
      (cs.zipIdx k).flatMap fun c => c.1.located.map fun s => (c.2 :: s.1, s.2) := by
  induction cs generalizing k with
  | nil => rfl
  | cons c cs ih => rw [locatedAll, ih, List.zipIdx_cons, List.flatMap_cons]

theorem located_mk (tag : Tag) (cs : List Node) :
    (mk tag cs).located =
      ([], mk tag cs) ::
        cs.zipIdx.flatMap fun c => c.1.located.map fun s => (c.2 :: s.1, s.2) := by
  rw [located, locatedAll_eq_flatMap]

/-- Without their addresses these are the nodes of the pre-order. -/
theorem map_snd_located (t : Node) : t.located.map Prod.snd = t.preorder := by
  induction t using Node.induct with
  | h tag cs ih =>
    have hchildren : ∀ k, (locatedAll k cs).map Prod.snd = cs.flatMap preorder := by
      induction cs with
      | nil => exact fun _ => rfl
      | cons c cs ihcs =>
        intro k
        have hrest := ihcs (fun d hd => ih d (List.mem_cons_of_mem c hd)) (k + 1)
        rw [locatedAll, List.map_append, List.map_map, hrest, List.flatMap_cons,
          ← ih c List.mem_cons_self]
        rfl
    rw [located, List.map_cons, hchildren, preorder_mk]

/-- An address leads to the node that it comes with, and every address that leads to a node comes
with it. -/
theorem mem_located_iff {t n : Node} {a : Address} :
    (a, n) ∈ t.located ↔ t.nodeAt? a = some n := by
  induction a generalizing t with
  | nil =>
    obtain ⟨tag, cs⟩ := t
    simp [located_mk, eq_comm]
  | cons k a ih =>
    obtain ⟨tag, cs⟩ := t
    rw [nodeAt?_cons_eq_some_iff, located_mk, List.mem_cons, List.mem_flatMap]
    constructor
    · rintro (hroot | ⟨⟨c, j⟩, hc, hmem⟩)
      · cases hroot
      · obtain ⟨⟨b, m⟩, hbelow, heq⟩ := List.mem_map.1 hmem
        cases heq
        exact ⟨c, List.mk_mem_zipIdx_iff_getElem?.1 hc, ih.1 hbelow⟩
    · rintro ⟨c, hc, hbelow⟩
      exact Or.inr ⟨(c, k), List.mk_mem_zipIdx_iff_getElem?.2 hc,
        List.mem_map.2 ⟨(a, n), ih.2 hbelow, rfl⟩⟩

/-- No two nodes have the same address. -/
theorem nodup_located (t : Node) : (t.located.map Prod.fst).Nodup := by
  induction t using Node.induct with
  | h tag cs ih =>
    rw [located_mk, List.map_cons, List.map_flatMap, List.nodup_cons, List.nodup_flatMap]
    refine ⟨?_, ?_, ?_⟩
    · -- the root is the only one with the empty address
      simp
    · rintro ⟨c, k⟩ hc
      have hchild := ih c (List.mem_of_getElem? (List.mk_mem_zipIdx_iff_getElem?.1 hc))
      rw [List.map_map]
      have hcons : (Prod.fst ∘ fun s : Address × Node => (k :: s.1, s.2)) =
          (k :: ·) ∘ Prod.fst := rfl
      rw [hcons, ← List.map_map]
      exact hchild.map List.cons_injective
    · -- siblings differ in the first step
      have hindices : (cs.zipIdx.map Prod.snd).Nodup := by
        rw [List.zipIdx_map_snd]
        exact List.nodup_range'
      refine (List.pairwise_map.1 hindices).imp ?_
      rintro ⟨c, k⟩ ⟨d, j⟩ hne a ha ha'
      obtain ⟨s, hs, rfl⟩ := List.mem_map.1 ha
      obtain ⟨s', hs', heq⟩ := List.mem_map.1 ha'
      obtain ⟨b, -, rfl⟩ := List.mem_map.1 hs
      obtain ⟨b', -, rfl⟩ := List.mem_map.1 hs'
      exact hne (List.cons.inj heq).1.symm

end Node

end PrototypeOrder
