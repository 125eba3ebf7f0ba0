/-
# The walk of a subtree

A walk is placed on a node anywhere in a tree and may not leave what is below it.  The places it
comes to are addresses in the whole tree, so nodes that look alike are told apart.

* `Node.movesBelow` : the moves between the nodes of a tree, for a walk with a given top;
* `Node.places`, `Node.rounds` : the addresses below a place in pre-order, and the rounds of a walk;
* `Node.leads_below` : from a node, the walk comes to all that is below it and then leaves it;
* `Node.StandsAt`, `Node.followedBy_cursor` : where a cursor stands, and that it allows the moves of
  the tree.

The result is that the loop comes to its end, having come to every node below its top once, in
pre-order, and to no other node.
-/
import PrototypeOrder.Proofs.Addresses
import PrototypeOrder.Proofs.WalkRounds

namespace PrototypeOrder

namespace Node

variable {t n : Node} {top p q : Address} {k : Nat}

/-! ## Moves in a tree -/

/-- An address that leads to a node. -/
def there? (t : Node) (p : Address) : Option Address := (t.nodeAt? p).map fun _ => p

/-- The moves between the nodes of a tree by their addresses: to the first child, if there is one;
to the next sibling, if there is one, but not from `top`; to the parent, but not from `top`. -/
def movesBelow (t : Node) (top : Address) : Moves Address where
  firstChild? p := t.there? (p ++ [0])
  nextSibling? p :=
    if p = top then none
    else p.getLast?.bind fun k => t.there? (p.dropLast ++ [k + 1])
  parent? p := if p = top then none else p.getLast?.map fun _ => p.dropLast

/-- The node at the address of a child. -/
theorem nodeAt?_snoc (hp : t.nodeAt? p = some n) (k : Nat) :
    t.nodeAt? (p ++ [k]) = n.children[k]? := by
  rw [nodeAt?_append, hp, Option.bind_some, nodeAt?_cons]
  cases n.children[k]? <;> rfl

theorem there?_snoc_of_some {c : Node} (hp : t.nodeAt? p = some n)
    (hc : n.children[k]? = some c) : t.there? (p ++ [k]) = some (p ++ [k]) := by
  rw [there?, nodeAt?_snoc hp, hc]
  rfl

theorem there?_snoc_of_none (hp : t.nodeAt? p = some n) (hc : n.children[k]? = none) :
    t.there? (p ++ [k]) = none := by
  rw [there?, nodeAt?_snoc hp, hc]
  rfl

/-- A child of a place at or below the top is not the top. -/
theorem snoc_ne_top (hp : top <+: p) (k : Nat) : p ++ [k] ≠ top := by
  intro h
  have hlength := hp.length_le
  rw [← h, List.length_append, List.length_singleton] at hlength
  omega

theorem nextSibling?_snoc (hp : top <+: p) (k : Nat) :
    (t.movesBelow top).nextSibling? (p ++ [k]) = t.there? (p ++ [k + 1]) := by
  show (if p ++ [k] = top then none else _) = _
  rw [if_neg (snoc_ne_top hp k), List.getLast?_concat, List.dropLast_concat]
  rfl

theorem parent?_snoc (hp : top <+: p) (k : Nat) :
    (t.movesBelow top).parent? (p ++ [k]) = some p := by
  show (if p ++ [k] = top then none else _) = _
  rw [if_neg (snoc_ne_top hp k), List.getLast?_concat, List.dropLast_concat]
  rfl

theorem nextSibling?_top (t : Node) (top : Address) :
    (t.movesBelow top).nextSibling? top = none :=
  if_pos rfl

theorem parent?_top (t : Node) (top : Address) : (t.movesBelow top).parent? top = none :=
  if_pos rfl

/-! ## The places below a place -/

/-- The addresses of a node at `p` and of all nodes below it, in pre-order. -/
def places (n : Node) (p : Address) : List Address := n.located.map fun s => p ++ s.1

/-- Whether something is below a node. -/
def isInner (n : Node) : Bool := !n.children.isEmpty

/-- The rounds of a walk: one that enters each node, and one that comes back to each node with
something below it. -/
def rounds (n : Node) : Nat := n.preorder.length + n.preorder.countP isInner

/-- The rounds that are spent on some siblings. -/
def roundsAll (cs : List Node) : Nat := (preorderAll cs).length + (preorderAll cs).countP isInner

theorem places_mk (tag : Tag) (cs : List Node) (p : Address) :
    (mk tag cs).places p = p :: cs.zipIdx.flatMap fun c => c.1.places (p ++ [c.2]) := by
  rw [places, located_mk, List.map_cons, List.append_nil, List.map_flatMap]
  congr 1
  refine List.flatMap_congr fun c _ => ?_
  rw [List.map_map, places]
  refine List.map_congr_left fun s _ => ?_
  rw [List.append_assoc]
  rfl

theorem rounds_mk_nil (tag : Tag) : (mk tag []).rounds = 1 := rfl

theorem rounds_mk (tag : Tag) {cs : List Node} (hcs : cs ≠ []) :
    (mk tag cs).rounds = roundsAll cs + 1 + 1 := by
  have hroot : isInner (mk tag cs) = true := by
    simpa [isInner] using hcs
  rw [rounds, preorder, List.length_cons, List.countP_cons_of_pos hroot, roundsAll]
  omega

theorem roundsAll_cons (c : Node) (cs : List Node) :
    roundsAll (c :: cs) = c.rounds + roundsAll cs := by
  rw [roundsAll, preorderAll, List.length_append, List.countP_append, rounds, roundsAll]
  omega

/-- There are fewer rounds than twice as many as there are nodes. -/
theorem rounds_lt (n : Node) : n.rounds < 2 * n.size := by
  induction n using Node.induct with
  | h tag cs ih =>
    have hchildren : roundsAll cs + cs.length ≤ 2 * sizeAll cs := by
      induction cs with
      | nil => exact Nat.le_refl 0
      | cons c cs ihcs =>
        have hc := ih c List.mem_cons_self
        have hcs := ihcs fun d hd => ih d (List.mem_cons_of_mem c hd)
        rw [roundsAll_cons, List.length_cons, sizeAll]
        omega
    rw [size]
    by_cases hcs : cs = []
    · rw [hcs, rounds_mk_nil]
      omega
    · have hlength := List.length_pos_iff.2 hcs
      rw [rounds_mk tag hcs]
      omega

/-- Each address below a place leads to a node there, and each node there has its address among
them. -/
theorem mem_places_iff (hp : t.nodeAt? p = some n) :
    q ∈ n.places p ↔ p <+: q ∧ ∃ m, t.nodeAt? q = some m := by
  rw [places, List.mem_map]
  constructor
  · rintro ⟨⟨a, m⟩, hmem, rfl⟩
    refine ⟨List.prefix_append p a, m, ?_⟩
    rw [nodeAt?_append, hp]
    exact mem_located_iff.1 hmem
  · rintro ⟨⟨a, rfl⟩, m, hm⟩
    rw [nodeAt?_append, hp] at hm
    exact ⟨(a, m), mem_located_iff.2 hm, rfl⟩

theorem nodup_places (n : Node) (p : Address) : (n.places p).Nodup := by
  rw [places, ← Function.comp_def (p ++ ·) Prod.fst, ← List.map_map]
  exact n.nodup_located.map (List.append_right_injective p)

/-- The nodes at these addresses are those of the pre-order. -/
theorem map_nodeAt?_places (hp : t.nodeAt? p = some n) :
    (n.places p).map t.nodeAt? = n.preorder.map some := by
  rw [← map_snd_located, places, List.map_map, List.map_map]
  refine List.map_congr_left fun s hs => ?_
  show t.nodeAt? (p ++ s.1) = some s.2
  rw [nodeAt?_append, hp]
  exact mem_located_iff.1 hs

/-! ## The loop -/

/-- From the node at `p` the walk comes to all that is below it and then leaves it. -/
def LeadsBelow (t : Node) (top : Address) (n : Node) (p : Address) : Prop :=
  (t.movesBelow top).Leads (some (.enter p)) (n.places p) n.rounds ((t.movesBelow top).leave? p)

/-- From a child on, the walk comes to all that is below this child and its later siblings and then
back to their parent. -/
theorem leads_siblings (htop : top <+: p) (hp : t.nodeAt? p = some n)
    (h : ∀ c k, n.children[k]? = some c → t.LeadsBelow top c (p ++ [k])) {later : List Node}
    (hlater : n.children.drop k = later) (hne : later ≠ []) :
    (t.movesBelow top).Leads (some (.enter (p ++ [k])))
      ((later.zipIdx k).flatMap fun c => c.1.places (p ++ [c.2])) (roundsAll later)
      (some (.back p)) := by
  induction later generalizing k with
  | nil => exact absurd rfl hne
  | cons c later ih =>
    have hc : n.children[k]? = some c := by
      rw [← List.head?_drop, hlater, List.head?_cons]
    have hrest : n.children.drop (k + 1) = later := by
      rw [← List.tail_drop, hlater, List.tail_cons]
    have hfirst := h c k hc
    rw [List.zipIdx_cons, List.flatMap_cons, roundsAll_cons, Nat.add_comm c.rounds]
    refine Moves.Leads.trans hfirst ?_
    -- the child is left for its next sibling, or for the parent if it is the last one
    cases later with
    | nil =>
      have hnone : n.children[k + 1]? = none := by
        rw [← List.head?_drop, hrest, List.head?_nil]
      rw [Moves.leave?_of_last ((nextSibling?_snoc htop k).trans (there?_snoc_of_none hp hnone))
        (parent?_snoc htop k)]
      exact .here _
    | cons d later =>
      have hd : n.children[k + 1]? = some d := by
        rw [← List.head?_drop, hrest, List.head?_cons]
      rw [Moves.leave?_of_sibling
        ((nextSibling?_snoc htop k).trans (there?_snoc_of_some hp hd))]
      exact ih hrest (List.cons_ne_nil d later)

/-- The walk comes to all that is below a node, by the structure of what is below it. -/
theorem leads_below (htop : top <+: p) (hp : t.nodeAt? p = some n) : t.LeadsBelow top n p := by
  induction n using Node.induct generalizing p with
  | h tag cs ih =>
    rw [LeadsBelow, places_mk]
    cases cs with
    | nil =>
      rw [rounds_mk_nil]
      refine .enter ?_
      rw [Moves.next?_enter_of_childless (there?_snoc_of_none hp rfl)]
      exact .here _
    | cons c cs =>
      rw [rounds_mk tag (List.cons_ne_nil c cs)]
      refine .enter ?_
      rw [Moves.next?_enter_of_child (there?_snoc_of_some hp rfl)]
      have hsiblings := leads_siblings (k := 0) htop hp
        (fun d k hd => ih d (List.mem_of_getElem? hd) (htop.trans (List.prefix_append p [k]))
          ((nodeAt?_snoc hp k).trans hd))
        rfl (List.cons_ne_nil c cs)
      -- one more round comes back to the node itself
      have hback := hsiblings.trans (.back (.here _))
      rw [List.append_nil, Nat.add_comm] at hback
      exact hback

/-- The loop that is placed on a node comes to its end. -/
theorem ends_places (htop : t.nodeAt? top = some n) :
    (t.movesBelow top).Ends (.enter top) (n.places top) n.rounds := by
  have h := leads_below (List.prefix_refl top) htop
  rw [LeadsBelow, Moves.leave?_of_top (nextSibling?_top t top) (parent?_top t top)] at h
  exact h

/-! ## The place of a cursor -/

/-- The address of the node that a cursor stands on, for a cursor that was placed on the node at
`top`. -/
inductive StandsAt (t : Node) (top : Address) : Address → Cursor → Prop
  | top {n : Node} (hn : t.nodeAt? top = some n) : StandsAt t top top (Cursor.place n)
  | child {p : Address} {c : Cursor} {k : Nat} {d : Node} (hc : StandsAt t top p c)
      (hd : c.node.children[k]? = some d) :
      StandsAt t top (p ++ [k]) ⟨d, ⟨c.node, c.node.children.drop (k + 1)⟩ :: c.path⟩

variable {c : Cursor}

theorem StandsAt.nodeAt (h : t.StandsAt top p c) : t.nodeAt? p = some c.node := by
  induction h with
  | top hn => exact hn
  | child _ hd ih => exact (nodeAt?_snoc ih _).trans hd

theorem StandsAt.top_prefix (h : t.StandsAt top p c) : top <+: p := by
  induction h with
  | top _ => exact List.prefix_refl top
  | child _ _ ih => exact ih.trans (List.prefix_append _ _)

/-- A cursor allows the moves of the tree that it stands in. -/
theorem followedBy_cursor (t : Node) (top : Address) :
    (t.movesBelow top).FollowedBy Cursor.moves (t.StandsAt top) where
  firstChild := by
    intro p c h
    show Option.Rel _ (t.there? (p ++ [0])) c.firstChild?
    unfold Cursor.firstChild?
    cases hchildren : c.node.children with
    | nil =>
      rw [there?_snoc_of_none h.nodeAt (by rw [hchildren]; rfl)]
      exact .none
    | cons d later =>
      have hd : c.node.children[0]? = some d := by rw [hchildren]; rfl
      have hchild := h.child hd
      rw [hchildren] at hchild
      rw [there?_snoc_of_some h.nodeAt hd]
      exact .some hchild
  nextSibling := by
    intro p c h
    cases h with
    | top hn =>
      rw [nextSibling?_top]
      exact .none
    | @child p c k d h hd =>
      -- the siblings that the cursor keeps are the children behind the one it stands on
      rw [nextSibling?_snoc h.top_prefix]
      show Option.Rel _ _ (Cursor.nextSibling? _)
      unfold Cursor.nextSibling?
      cases hlater : c.node.children.drop (k + 1) with
      | nil =>
        rw [there?_snoc_of_none h.nodeAt (by rw [← List.head?_drop, hlater]; rfl)]
        exact .none
      | cons e later =>
        have he : c.node.children[k + 1]? = some e := by rw [← List.head?_drop, hlater]; rfl
        have hnext := h.child he
        rw [← List.tail_drop, hlater, List.tail_cons] at hnext
        rw [there?_snoc_of_some h.nodeAt he]
        exact .some hnext
  parent := by
    intro p c h
    cases h with
    | top hn =>
      rw [parent?_top]
      exact .none
    | child h hd =>
      rw [parent?_snoc h.top_prefix]
      exact .some h

end Node

/-- **A walk comes to its end, in pre-order.**  A walk is placed on a node anywhere in a tree, and
is allowed the moves of the tree that do not leave what is below that node.  The loop comes to its
end, in one way only: it visits the node and all that is below it, and enters each node and comes
back to each node that has children in one round each.  The addresses that it visits are those of
the pre-order, a node first and then what is below its children from left to right; each address at
or below the top that leads to a node is among them once, and no other.  The loop of a cursor that
is placed on the node takes the same rounds and stands at these addresses one after the other, and
what `Node.walk` gives are the nodes under that cursor; no bound on the steps that allows these
rounds cuts it short.  So a walk is the pre-order, and a walk for some kinds of node is the part of
the pre-order that is of one of these kinds. -/
theorem walk_ends_in_preorder {t n : Node} {top : Address} (htop : t.nodeAt? top = some n) :
    (∀ visits rounds, (t.movesBelow top).Ends (.enter top) visits rounds ↔
      visits = n.places top ∧ rounds = n.rounds) ∧
    (∃ cursors, Cursor.moves.Ends (.enter (Cursor.place n)) cursors n.rounds ∧
      List.Forall₂ (t.StandsAt top) (n.places top) cursors ∧
      n.walk = cursors.map Cursor.node ∧
      ∀ fuel, n.rounds ≤ fuel → Cursor.walk fuel (Cursor.place n) false = n.walk) ∧
    (n.places top).map t.nodeAt? = n.walk.map some ∧
    (n.places top).Nodup ∧
    (∀ p, p ∈ n.places top ↔ top <+: p ∧ ∃ m, t.nodeAt? p = some m) ∧
    n.walk = n.preorder ∧ n.preorder = n :: n.children.flatMap Node.preorder ∧
    ∀ kinds, n.walkKinds kinds = n.preorder.filter fun m => m.kind ∈ kinds := by
  have hends := Node.ends_places htop
  obtain ⟨cursors, hcursors, hstands⟩ :=
    Moves.Ends.follow (Node.followedBy_cursor t top) hends (.top htop)
  have hwalk : n.walk = cursors.map Cursor.node :=
    Cursor.walk_of_ends hcursors (Nat.le_of_lt n.rounds_lt)
  have hbound : ∀ fuel, n.rounds ≤ fuel → Cursor.walk fuel (Cursor.place n) false = n.walk :=
    fun fuel hfuel => (Cursor.walk_of_ends hcursors hfuel).trans hwalk.symm
  refine ⟨?_, ⟨cursors, hcursors, hstands, hwalk, hbound⟩, ?_, n.nodup_places top,
    fun p => Node.mem_places_iff htop, n.walk_eq_preorder, ?_, ?_⟩
  · intro visits rounds
    constructor
    · exact fun h => h.unique hends
    · rintro ⟨rfl, rfl⟩
      exact hends
  · rw [n.walk_eq_preorder]
    exact Node.map_nodeAt?_places htop
  · rw [n.preorder_eq, Node.preorderAll_eq_flatMap]
  · intro kinds
    rw [Node.walkKinds, n.walk_eq_preorder]

/-- A body between two names, with a declarator and a name inside it.  All names look alike, but
the walk of the body comes to the two inside it only, to each of them once. -/
theorem walk_ends_in_preorder_twins :
    let tag (kind : String) : Tag := ⟨kind, 0, 1, ⟨0, 0⟩, none, false, false, false⟩
    let name : Node := .mk (tag "identifier") []
    let declarator : Node := .mk (tag "function_declarator") [name]
    let body : Node := .mk (tag "function_definition") [declarator, name]
    let file : Node := .mk (tag "translation_unit") [name, body, name]
    file.nodeAt? [1] = some body ∧
      (file.movesBelow [1]).Ends (.enter [1]) [[1], [1, 0], [1, 0, 0], [1, 1]] 6 ∧
      (∀ fuel, 6 ≤ fuel →
        Cursor.walk fuel (Cursor.place body) false = [body, declarator, name, name]) ∧
      body.walkKinds ["identifier"] = [name, name] := by
  intro tag name declarator body file
  have htop : file.nodeAt? [1] = some body := rfl
  obtain ⟨hends, ⟨_, _, _, _, hbound⟩, _, _, _, hwalk, _, hkinds⟩ := walk_ends_in_preorder htop
  refine ⟨htop, (hends _ _).2 ⟨rfl, rfl⟩, ?_, ?_⟩
  · intro fuel hfuel
    rw [hbound fuel hfuel, hwalk]
    rfl
  · rw [hkinds]
    rfl

end PrototypeOrder
