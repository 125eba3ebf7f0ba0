/-
# Functions that share a name

Prototypes and bodies may lie inside one another, and each is named by the first identifier that is
declared as a function anywhere below it.  So a declaration of a variable, or a body whose own name
is hidden in brackets, takes its name from a prototype or a body inside it, and one identifier
names both.

* `Node.nameAddress?` : the search for a name, with the address of what it finds;
* `Node.nameAddress?_of_prefix` : a node on the way to the name has the same name;
* `Node.origins` : the nodes that items are read from and the identifiers that name them, by their
  addresses;
* `Node.ident_eq_iff` : which nodes share a name;
* `Node.exists_owner` : of the nodes that share a name one owns it.

The result is that nodes share a name only if one lies in the other and the outer one has no name of
its own in front of the inner one.
-/
import PrototypeOrder.C.Outline
import PrototypeOrder.Proofs.Addresses

namespace PrototypeOrder

/-- A search through lists one after the other. -/
theorem findSome?_flatMap {α β γ : Type} (xs : List α) (f : α → List β) (p : β → Option γ) :
    (xs.flatMap f).findSome? p = xs.findSome? fun x => (f x).findSome? p := by
  induction xs with
  | nil => rfl
  | cons x xs ih =>
    rw [List.flatMap_cons, List.findSome?_append, ih, List.findSome?_cons]
    cases (f x).findSome? p <;> rfl

/-- A search that finds something for what another search finds. -/
theorem findSome?_eq_bind {α β γ : Type} {xs : List α} {f : α → Option β} {g : α → Option γ}
    {k : γ → Option β} (hf : ∀ x ∈ xs, f x = (g x).bind k)
    (hk : ∀ x ∈ xs, ∀ c, g x = some c → ∃ b, k c = some b) :
    xs.findSome? f = (xs.findSome? g).bind k := by
  induction xs with
  | nil => rfl
  | cons x xs ih =>
    have hrest := ih (fun y hy => hf y (List.mem_cons_of_mem x hy))
      (fun y hy => hk y (List.mem_cons_of_mem x hy))
    have hx := hf x List.mem_cons_self
    rw [List.findSome?_cons, List.findSome?_cons]
    cases hg : g x with
    | none =>
      rw [hg] at hx
      rw [hx]
      exact hrest
    | some c =>
      obtain ⟨b, hb⟩ := hk x List.mem_cons_self c hg
      rw [hg, Option.bind_some, hb] at hx
      rw [hx]
      exact hb.symm

namespace Node

/-! ## The address of a name -/

/-- The index of the child that a node declares as a function, if it is a function declarator. -/
def declaredChild? (n : Node) : Option Nat :=
  if n.kind = "function_declarator" then
    (n.children.findIdx? fun c => c.tag.field = some "declarator").filter fun k =>
      n.children[k]?.any fun d => d.kind = "identifier"
  else none

/-- What a node declares as a function is the child with that index. -/
theorem declaredName?_eq_bind (n : Node) :
    n.declaredName? = n.declaredChild?.bind fun k => n.children[k]? := by
  unfold declaredName? declaredChild?
  by_cases hkind : n.kind = "function_declarator"
  · rw [if_pos hkind, if_pos hkind, field?, List.find?_eq_bind_findIdx?_getElem?,
      Option.filter_bind]
  · rw [if_neg hkind, if_neg hkind]
    rfl

theorem declaredChild?_eq_some {n : Node} {k : Nat} (h : n.declaredChild? = some k) :
    ∃ ident, n.children[k]? = some ident ∧ ident.kind = "identifier" := by
  unfold declaredChild? at h
  split at h
  · have hany := (Option.filter_eq_some_iff.1 h).2
    cases hident : n.children[k]? with
    | none => simp [hident] at hany
    | some ident => exact ⟨ident, rfl, by simpa [hident] using hany⟩
  · cases h

/-- The address of the first identifier that the node or a node below it declares as a function. -/
def nameAddress? (n : Node) : Option Address :=
  n.located.findSome? fun s => s.2.declaredChild?.map fun k => s.1 ++ [k]

/-- What stands at the address of the name is the name. -/
theorem functionName?_eq_bind (n : Node) : n.functionName? = n.nameAddress?.bind n.nodeAt? := by
  have hat : ∀ s ∈ n.located, ∀ k, n.nodeAt? (s.1 ++ [k]) = s.2.children[k]? := by
    rintro ⟨a, m⟩ hs k
    rw [nodeAt?_append, mem_located_iff.1 hs]
    cases h : m.children[k]? <;> simp [nodeAt?_cons, h]
  rw [functionName?, walk_eq_preorder, ← map_snd_located, List.findSome?_map]
  refine findSome?_eq_bind ?_ ?_
  · intro s hs
    show s.2.declaredName? = _
    rw [declaredName?_eq_bind, Option.bind_map]
    congr 1
    funext k
    exact (hat s hs k).symm
  · intro s hs a ha
    obtain ⟨k, hk, rfl⟩ := Option.map_eq_some_iff.1 ha
    obtain ⟨ident, hident, -⟩ := declaredChild?_eq_some hk
    exact ⟨ident, by rw [hat s hs, hident]⟩

/-- The name is declared by the root, or is the first that is found below it. -/
theorem nameAddress?_mk (tag : Tag) (cs : List Node) :
    (mk tag cs).nameAddress? =
      ((declaredChild? (mk tag cs)).map fun k => [k]).or
        (cs.zipIdx.findSome? fun c => c.1.nameAddress?.map fun a => c.2 :: a) := by
  have hchild : ∀ c : Node × Nat,
      ((c.1.located.map fun s => (c.2 :: s.1, s.2)).findSome? fun s =>
        s.2.declaredChild?.map fun k => s.1 ++ [k]) =
      c.1.nameAddress?.map fun a => c.2 :: a := by
    intro c
    rw [nameAddress?, List.findSome?_map, List.map_findSome?]
    congr 1
    funext s
    show (s.2.declaredChild?.map fun k => c.2 :: s.1 ++ [k]) = _
    rw [Function.comp, Option.map_map]
    rfl
  rw [nameAddress?, located_mk, List.findSome?_cons, findSome?_flatMap]
  simp only [hchild]
  cases declaredChild? (mk tag cs) <;> rfl

/-- At the address of a name, below the node that is named, stands an identifier. -/
theorem exists_of_nameAddress? {n : Node} {i : Address} (h : n.nameAddress? = some i) :
    ∃ ident, n.nodeAt? i = some ident ∧ ident.kind = "identifier" := by
  obtain ⟨⟨a, m⟩, hs, hi⟩ := List.exists_of_findSome?_eq_some h
  obtain ⟨k, hk, rfl⟩ := Option.map_eq_some_iff.1 hi
  obtain ⟨ident, hident, hkind⟩ := declaredChild?_eq_some hk
  refine ⟨ident, ?_, hkind⟩
  rw [nodeAt?_append, mem_located_iff.1 hs, Option.bind_some, nodeAt?_cons, hident]
  rfl

/-- A node on the way to the name has the same name. -/
theorem nameAddress?_of_prefix {n m : Node} {r i : Address}
    (h : n.nameAddress? = some (r ++ i)) (hi : i ≠ []) (hm : n.nodeAt? r = some m) :
    m.nameAddress? = some i := by
  induction r generalizing n with
  | nil =>
    obtain rfl : n = m := by simpa using hm
    exact h
  | cons k r ih =>
    obtain ⟨tag, cs⟩ := n
    obtain ⟨c, hc, hm'⟩ := nodeAt?_cons_eq_some_iff.1 hm
    rw [nameAddress?_mk] at h
    cases hroot : declaredChild? (mk tag cs) with
    | some j =>
      -- the root declares a child of its own, which is not further down
      rw [hroot] at h
      have hnil : r ++ i = [] := by simpa using (List.cons.inj (Option.some.inj h)).2.symm
      exact absurd (List.append_eq_nil_iff.1 hnil).2 hi
    | none =>
      rw [hroot, Option.map_none, Option.none_or] at h
      obtain ⟨⟨c', j⟩, hc', hname⟩ := List.exists_of_findSome?_eq_some h
      obtain ⟨a, ha, hcons⟩ := Option.map_eq_some_iff.1 hname
      obtain ⟨rfl, rfl⟩ := List.cons.inj hcons
      have hsame : some c' = some c := (List.mk_mem_zipIdx_iff_getElem?.1 hc').symm.trans hc
      rw [Option.some.inj hsame] at ha
      exact ih ha hm'

end Node

/-! ## Where items come from -/

/-- The address of a node that an item is read from and the address of the identifier that names
it. -/
structure Origin where
  node : Address
  ident : Address
deriving DecidableEq, Repr

namespace Node

/-- The origins of the items of a tree, in pre-order. -/
def origins (t : Node) : List Origin :=
  t.located.filterMap fun s =>
    if s.2.kind ∈ itemKinds then s.2.nameAddress?.map fun i => ⟨s.1, s.1 ++ i⟩ else none

theorem mem_origins_iff {t : Node} {o : Origin} :
    o ∈ t.origins ↔ ∃ n i, t.nodeAt? o.node = some n ∧ n.kind ∈ itemKinds ∧
      n.nameAddress? = some i ∧ o.ident = o.node ++ i := by
  rw [origins, List.mem_filterMap]
  constructor
  · rintro ⟨⟨a, n⟩, hs, ho⟩
    obtain ⟨hkind, ho⟩ := Option.ite_none_right_eq_some.1 ho
    obtain ⟨i, hi, rfl⟩ := Option.map_eq_some_iff.1 ho
    exact ⟨n, i, mem_located_iff.1 hs, hkind, hi, rfl⟩
  · rintro ⟨n, i, hn, hkind, hi, hident⟩
    refine ⟨(o.node, n), mem_located_iff.2 hn, ?_⟩
    rw [if_pos hkind, hi, Option.map_some, ← hident]

/-- Each item is read from a node of its own. -/
theorem nodup_origins (t : Node) : (t.origins.map Origin.node).Nodup := by
  have hlocated := List.pairwise_map.1 t.nodup_located
  rw [origins, List.Nodup, List.pairwise_map, List.pairwise_filterMap]
  refine hlocated.imp ?_
  rintro ⟨a, n⟩ ⟨a', n'⟩ hne o ho o' ho'
  obtain ⟨i, -, rfl⟩ := Option.map_eq_some_iff.1 (Option.ite_none_right_eq_some.1 ho).2
  obtain ⟨i', -, rfl⟩ := Option.map_eq_some_iff.1 (Option.ite_none_right_eq_some.1 ho').2
  exact hne

variable {t : Node} {o o' : Origin}

theorem origin_unique (ho : o ∈ t.origins) (ho' : o' ∈ t.origins) (h : o.node = o'.node) :
    o = o' :=
  List.inj_on_of_nodup_map t.nodup_origins ho ho' h

/-- The identifier that names an item lies in the node of the item. -/
theorem node_prefix_ident (ho : o ∈ t.origins) : o.node <+: o.ident := by
  obtain ⟨n, i, -, -, -, hident⟩ := mem_origins_iff.1 ho
  exact ⟨i, hident.symm⟩

/-- A prototype or body on the way from an item to its name has the same name. -/
theorem mem_origins_of_between (ho : o ∈ t.origins) {a : Address} {n : Node}
    (hn : (a, n) ∈ t.located) (hkind : n.kind ∈ itemKinds) (hnode : o.node <+: a)
    (hident : a <+: o.ident) : ⟨a, o.ident⟩ ∈ t.origins := by
  obtain ⟨m, i, hm, -, hi, heq⟩ := mem_origins_iff.1 ho
  obtain ⟨r, rfl⟩ := hnode
  obtain ⟨j, hj⟩ := hident
  rw [mem_located_iff, nodeAt?_append, hm, Option.bind_some] at hn
  obtain rfl : r ++ j = i := by
    rw [heq, List.append_assoc] at hj
    exact List.append_cancel_left hj
  -- the identifier itself is neither a prototype nor a body
  have hne : j ≠ [] := by
    rintro rfl
    obtain ⟨ident, hat, hidentKind⟩ := exists_of_nameAddress? hi
    rw [List.append_nil, hn, Option.some.injEq] at hat
    rw [hat, hidentKind] at hkind
    exact absurd hkind (by decide)
  refine mem_origins_iff.2 ⟨n, j, ?_, hkind, nameAddress?_of_prefix hi hne hn, hj.symm⟩
  rw [nodeAt?_append, hm, Option.bind_some, hn]

/-- **Shared names.**  Two items have the same identifier as their name exactly when the node of one
lies in the node of the other and the name of the outer one lies in the inner one. -/
theorem ident_eq_iff (ho : o ∈ t.origins) (ho' : o' ∈ t.origins) :
    o.ident = o'.ident ↔
      (o.node <+: o'.node ∧ o'.node <+: o.ident) ∨ (o'.node <+: o.node ∧ o.node <+: o'.ident) := by
  have hinner : ∀ {o o' : Origin}, o ∈ t.origins → o' ∈ t.origins → o.node <+: o'.node →
      o'.node <+: o.ident → o.ident = o'.ident := by
    intro o o' ho ho' hnode hident
    obtain ⟨n, i, hn, hkind, -⟩ := mem_origins_iff.1 ho'
    have hshared := mem_origins_of_between ho (mem_located_iff.2 hn) hkind hnode hident
    have hsame := congrArg Origin.ident (origin_unique hshared ho' rfl)
    exact hsame
  constructor
  · intro h
    have hnode := node_prefix_ident ho
    have hnode' := node_prefix_ident ho'
    rcases List.prefix_or_prefix_of_prefix hnode (h ▸ hnode') with hle | hle
    · exact Or.inl ⟨hle, h ▸ hnode'⟩
    · exact Or.inr ⟨hle, h ▸ hnode⟩
  · rintro (⟨hnode, hident⟩ | ⟨hnode, hident⟩)
    · exact hinner ho ho' hnode hident
    · exact (hinner ho' ho hnode hident).symm

end Node

/-! ## Names of one's own -/

/-- An item owns its name if no other prototype or body lies on the way from its node to the
identifier. -/
def Origin.OwnsName (t : Node) (o : Origin) : Prop :=
  ∀ s ∈ t.located, s.2.kind ∈ Node.itemKinds → o.node <+: s.1 → s.1 <+: o.ident → s.1 = o.node

instance (t : Node) (o : Origin) : Decidable (o.OwnsName t) :=
  inferInstanceAs (Decidable (∀ s ∈ t.located, s.2.kind ∈ Node.itemKinds → o.node <+: s.1 →
    s.1 <+: o.ident → s.1 = o.node))

namespace Node

variable {t : Node} {o o' : Origin}

/-- Of the items that have the same name the innermost one owns it. -/
theorem exists_owner (ho : o ∈ t.origins) :
    ∃ o' ∈ t.origins, o'.ident = o.ident ∧ o'.OwnsName t := by
  -- by how far the name lies below the node, which is less for a node on the way
  induction hlen : o.ident.length - o.node.length using Nat.strongRecOn generalizing o with
  | _ length ih =>
    subst hlen
    by_cases hown : o.OwnsName t
    · exact ⟨o, ho, rfl, hown⟩
    · unfold Origin.OwnsName at hown
      push Not at hown
      obtain ⟨⟨a, n⟩, hn, hkind, hnode, hident, hne⟩ := hown
      have hshared := mem_origins_of_between ho hn hkind hnode hident
      have hlonger : o.node.length < a.length :=
        Nat.lt_of_le_of_ne hnode.length_le fun h => hne (hnode.eq_of_length h).symm
      have hle : a.length ≤ o.ident.length := hident.length_le
      exact ih (o.ident.length - a.length) (by omega) (o := ⟨a, o.ident⟩) hshared rfl

/-- No two items own the same name. -/
theorem owner_unique (ho : o ∈ t.origins) (ho' : o' ∈ t.origins) (hown : o.OwnsName t)
    (hown' : o'.OwnsName t) (h : o.ident = o'.ident) : o = o' := by
  obtain ⟨n, -, hn, hkind, -⟩ := mem_origins_iff.1 ho
  obtain ⟨n', -, hn', hkind', -⟩ := mem_origins_iff.1 ho'
  apply origin_unique ho ho'
  rcases (ident_eq_iff ho ho').1 h with ⟨hnode, hident⟩ | ⟨hnode, hident⟩
  · exact (hown (o'.node, n') (mem_located_iff.2 hn') hkind' hnode hident).symm
  · exact hown' (o.node, n) (mem_located_iff.2 hn) hkind hnode hident

/-- No identifier names two items exactly when all items own their names. -/
theorem nodup_ident_iff (t : Node) :
    (t.origins.map Origin.ident).Nodup ↔ ∀ o ∈ t.origins, o.OwnsName t := by
  constructor
  · intro hnodup o ho
    obtain ⟨o', ho', hident, hown⟩ := exists_owner ho
    rwa [← List.inj_on_of_nodup_map hnodup ho' ho hident]
  · intro hown
    apply List.Nodup.map_on _ (List.Nodup.of_map _ t.nodup_origins)
    intro o ho o' ho' h
    exact owner_unique ho ho' (hown o ho) (hown o' ho') h

end Node

namespace SourceFile

/-- The origins lead to the nodes that items are read from and to their names. -/
theorem map_origins (f : SourceFile) :
    f.tree.origins.map (fun o => (f.tree.nodeAt? o.node, f.tree.nodeAt? o.ident)) =
      f.named.map fun source => (some source.1, some source.2) := by
  rw [named, itemNodes, Node.walkKinds, Node.walk_eq_preorder, ← Node.map_snd_located,
    List.filterMap_filter, List.filterMap_map, Node.origins, List.map_filterMap,
    List.map_filterMap]
  apply List.filterMap_congr
  rintro ⟨a, n⟩ hs
  have hn := Node.mem_located_iff.1 hs
  show Option.map _ (if n.kind ∈ Node.itemKinds then _ else none) =
    Option.map _ (if decide (n.kind ∈ Node.itemKinds) = true then _ else none)
  by_cases hkind : n.kind ∈ Node.itemKinds
  · rw [if_pos hkind, if_pos (decide_eq_true hkind), Node.functionName?_eq_bind]
    cases hi : n.nameAddress? with
    | none => rfl
    | some i =>
      obtain ⟨ident, hident, -⟩ := Node.exists_of_nameAddress? hi
      simp [Node.nodeAt?_append, hn, hident]
  · rw [if_neg hkind, if_neg (by simpa using hkind)]
    rfl

end SourceFile

/-- **Names are shared inside only.**  Each item of a file is read from a node of its own and named
by an identifier below that node.  Different nodes are named by the same identifier exactly when one
of them lies in the other and the name of the outer one lies in the inner one.

Of the items with a name exactly one owns it, so no identifier names two items exactly when all
items own their names. -/
theorem name_shared_inside_only (f : SourceFile) :
    let t := f.tree
    (f.items = f.named.map (fun source => f.itemAt source.1 source.2) ∧
      t.origins.map (fun o => (t.nodeAt? o.node, t.nodeAt? o.ident)) =
        f.named.map fun source => (some source.1, some source.2)) ∧
    (t.origins.map Origin.node).Nodup ∧
    (∀ o ∈ t.origins, ∀ o' ∈ t.origins, o.node ≠ o'.node →
      (o.ident = o'.ident ↔
        (o.node <+: o'.node ∧ o'.node <+: o.ident) ∨
          (o'.node <+: o.node ∧ o.node <+: o'.ident))) ∧
    (∀ o ∈ t.origins, ∃ owner ∈ t.origins, owner.ident = o.ident ∧ owner.OwnsName t ∧
      ∀ o' ∈ t.origins, o'.ident = o.ident → o'.OwnsName t → o' = owner) ∧
    ((t.origins.map Origin.ident).Nodup ↔ ∀ o ∈ t.origins, o.OwnsName t) := by
  intro t
  refine ⟨⟨f.items_eq_named, f.map_origins⟩, t.nodup_origins, ?_, ?_, t.nodup_ident_iff⟩
  · intro o ho o' ho' _
    exact Node.ident_eq_iff ho ho'
  · intro o ho
    obtain ⟨owner, howner, hident, hown⟩ := Node.exists_owner ho
    refine ⟨owner, howner, hident, hown, ?_⟩
    intro o' ho' hident' hown'
    exact Node.owner_unique ho' howner hown' hown (hident'.trans hident.symm)

/-- A body `f` with a variable `x` in it, whose value has the prototype `g` in it.  The variable and
the prototype share the name `g`, which the prototype owns. -/
theorem name_shared_inside_only_initialiser :
    let bytes := Utf8.encode "void f(void)\x7bint x=(\x7bint g(void);g();\x7d);\x7d"
    let t := C.parse bytes
    let x : Origin := ⟨[0, 2, 0], [0, 2, 0, 2, 0, 1, 0]⟩
    let g : Origin := ⟨[0, 2, 0, 2, 0], [0, 2, 0, 2, 0, 1, 0]⟩
    t.origins = [⟨[0], [0, 1, 0]⟩, x, g] ∧ g.OwnsName t ∧
      (x.node <+: g.node ∧ g.node <+: x.ident) ∧ x.ident = g.ident ∧
      ¬ (t.origins.map Origin.ident).Nodup := by
  intro bytes t x g
  have facts : t.origins = [⟨[0], [0, 1, 0]⟩, x, g] ∧ g.OwnsName t ∧ ¬ x.OwnsName t ∧
      (x.node <+: g.node ∧ g.node <+: x.ident) := by
    decide +kernel
  obtain ⟨horigins, hown, hnot, hinside⟩ := facts
  have hx : x ∈ t.origins := by simp [horigins]
  have hg : g ∈ t.origins := by simp [horigins]
  obtain ⟨-, -, hshared, -, hnodup⟩ := name_shared_inside_only ⟨"f.c", bytes, t⟩
  refine ⟨horigins, hown, hinside, ?_, ?_⟩
  · exact (hshared x hx g hg (by decide)).2 (Or.inl hinside)
  · intro h
    exact hnot (hnodup.1 h x hx)

/-- One identifier can name two items: the variable `x` is read as a second prototype of `g`. -/
theorem variable_named_by_inner_prototype :
    let bytes := Utf8.encode "void f(void) \x7b int x = (\x7b int g(void); g(); \x7d); \x7d\n"
    let f : SourceFile := ⟨"f.c", bytes, C.parse bytes⟩
    f.items.map Item.name = ["f", "g", "g"] ∧
      ∃ o ∈ f.tree.origins, ∃ o' ∈ f.tree.origins, o.node ≠ o'.node ∧ o.ident = o'.ident := by
  decide +kernel

end PrototypeOrder
