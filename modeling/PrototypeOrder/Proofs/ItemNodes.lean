/-
# Nodes that items are read from

What is read off a tree is read off its nodes one by one, in pre-order.  Each node gives an item,
the record of a body without a name, or nothing, and what it gives depends on what is below it
only.

* `Node.induct` : induction on trees;
* `Node.functionName?_mk` : the search for a name, by the structure of the tree;
* `SourceFile.itemAt`, `SourceFile.item?` : what a node gives;
* `SourceFile.items_eq_named`, `SourceFile.items_findsIn`, `SourceFile.events_findsIn` : the items
  and records of a file, node by node.
-/
import PrototypeOrder.Order.Event
import PrototypeOrder.Source.File

namespace PrototypeOrder

namespace Node

/-! ## Trees -/

mutual

/-- What holds of a node whenever it holds of its children holds of every node. -/
theorem induct {motive : Node → Prop}
    (h : ∀ tag cs, (∀ c ∈ cs, motive c) → motive (.mk tag cs)) : (n : Node) → motive n
  | .mk tag cs => h tag cs (inductAll h cs)

theorem inductAll {motive : Node → Prop}
    (h : ∀ tag cs, (∀ c ∈ cs, motive c) → motive (.mk tag cs)) :
    (cs : List Node) → ∀ c ∈ cs, motive c
  | [] => by simp
  | c :: cs => by
    intro d hd
    rcases List.mem_cons.1 hd with hdc | hd
    · rw [hdc]
      exact induct h c
    · exact inductAll h cs d hd

end

theorem preorder_mk (tag : Tag) (cs : List Node) :
    (mk tag cs).preorder = mk tag cs :: cs.flatMap preorder := by
  rw [preorder, preorderAll_eq_flatMap]

/-- A node of a tree is its root or a node of one of the trees below it. -/
theorem mem_preorder_mk {n : Node} {tag : Tag} {cs : List Node} :
    n ∈ (mk tag cs).preorder ↔ n = mk tag cs ∨ ∃ c ∈ cs, n ∈ c.preorder := by
  rw [preorder_mk, List.mem_cons, List.mem_flatMap]

/-- The name of a function is declared by the root, or is the first that is found below it. -/
theorem functionName?_mk (tag : Tag) (cs : List Node) :
    (mk tag cs).functionName? = (declaredName? (mk tag cs)).or (cs.findSome? functionName?) := by
  have hchildren : (cs.flatMap preorder).findSome? declaredName? = cs.findSome? functionName? := by
    induction cs with
    | nil => rfl
    | cons c cs ih =>
      rw [List.flatMap_cons, List.findSome?_append, ih, List.findSome?_cons, functionName?,
        walk_eq_preorder]
      cases c.preorder.findSome? declaredName? <;> rfl
  rw [functionName?, walk_eq_preorder, preorder_mk, List.findSome?_cons, hchildren]
  cases declaredName? (mk tag cs) <;> rfl

/-- The identifier that a node declares as a function is its child in that role. -/
theorem declaredName?_eq_some {n ident : Node} (h : n.declaredName? = some ident) :
    n.kind = "function_declarator" ∧ n.field? "declarator" = some ident := by
  rw [declaredName?] at h
  split at h
  · exact ⟨‹_›, (Option.filter_eq_some_iff.1 h).1⟩
  · cases h

/-- Whether a node is a body without a function name. -/
def isNameless (n : Node) : Bool := n.kind = "function_definition" && n.functionName?.isNone

end Node

namespace SourceFile

/-- The file with another tree. -/
def withTree (f : SourceFile) (t : Node) : SourceFile := { f with tree := t }

/-! ## What a node gives -/

/-- The item that is read from a node; `ident` is the identifier that names it. -/
def itemAt (f : SourceFile) (n ident : Node) : Item :=
  if n.kind = "declaration" then
    .declaration ⟨ident.text f.bytes, f.location ident, some (f.location n)⟩
  else .definition ⟨ident.text f.bytes, f.location ident, n.isStatic f.bytes⟩

/-- The item that is read from a node, if it has a name. -/
def item? (f : SourceFile) (n : Node) : Option Item := n.functionName?.map (f.itemAt n)

/-- What is come across at some nodes. -/
def findsIn (f : SourceFile) (nodes : List Node) : List Find :=
  nodes.filterMap (f.findAt f.location)

/-- The items that are read from some nodes. -/
def itemsIn (f : SourceFile) (nodes : List Node) : List Item := nodes.filterMap f.item?

/-- The records of the bodies without a name among some nodes. -/
def skipsIn (f : SourceFile) (nodes : List Node) : List Event :=
  (nodes.filter Node.isNameless).map fun n => .skipped f.name n.tag.point.row

/-- The nodes that items are read from, each with the identifier that names it, in order. -/
def named (f : SourceFile) : List (Node × Node) :=
  f.itemNodes.filterMap fun n => n.functionName?.map fun ident => (n, ident)

theorem finds_eq_findsIn (f : SourceFile) : f.finds = f.findsIn f.itemNodes := rfl

theorem item?_findAt (f : SourceFile) (n : Node) :
    (f.findAt f.location n).bind Find.item? = f.item? n := by
  rw [findAt, item?]
  by_cases hkind : n.kind = "declaration"
  · rw [if_pos hkind]
    cases n.functionName? with
    | none => rfl
    | some ident =>
      rw [Option.map_some, Option.map_some, itemAt, if_pos hkind]
      rfl
  · rw [if_neg hkind]
    cases n.functionName? with
    | none => rfl
    | some ident =>
      rw [Option.map_some, itemAt, if_neg hkind]
      rfl

theorem items_findsIn (f : SourceFile) (nodes : List Node) :
    (f.findsIn nodes).filterMap Find.item? = f.itemsIn nodes := by
  rw [findsIn, List.filterMap_filterMap, itemsIn]
  exact congrArg (List.filterMap · nodes) (funext f.item?_findAt)

/-- A node with an item has come across it. -/
theorem findAt_of_item? (f : SourceFile) {n : Node} {x : Item} (h : f.item? n = some x) :
    f.findAt f.location n = some (.item x) := by
  rw [← item?_findAt] at h
  obtain ⟨find, hfind, hitem⟩ := Option.bind_eq_some_iff.1 h
  cases find with
  | item i =>
    rw [Find.item?] at hitem
    rw [hfind, ← Option.some.inj hitem]
  | nameless file row => cases hitem

theorem findsIn_append (f : SourceFile) (nodes later : List Node) :
    f.findsIn (nodes ++ later) = f.findsIn nodes ++ f.findsIn later :=
  List.filterMap_append

theorem findsIn_cons_of_item? (f : SourceFile) {n : Node} {x : Item} (h : f.item? n = some x)
    (nodes : List Node) : f.findsIn (n :: nodes) = .item x :: f.findsIn nodes := by
  rw [findsIn, List.filterMap_cons, f.findAt_of_item? h]
  rfl

/-- An item among those of some nodes is read from one of them. -/
theorem itemsIn_split (f : SourceFile) {nodes : List Node} {before : List Item} {x : Item}
    {after : List Item} (h : f.itemsIn nodes = before ++ x :: after) :
    ∃ early n late, nodes = early ++ n :: late ∧ f.itemsIn early = before ∧
      f.item? n = some x ∧ f.itemsIn late = after := by
  obtain ⟨early, rest, rfl, hearly, hrest⟩ := List.filterMap_eq_append_iff.1 h
  obtain ⟨skipped, n, late, rfl, hskipped, hn, hlate⟩ := List.filterMap_eq_cons_iff.1 hrest
  refine ⟨early ++ skipped, n, late, by rw [List.append_assoc], ?_, hn, hlate⟩
  rw [itemsIn, List.filterMap_append, hearly, List.filterMap_eq_nil_iff.2 hskipped,
    List.append_nil]

/-- A node is recorded if it is a body without a name. -/
theorem event?_findAt (f : SourceFile) {n : Node} (h : n ∈ f.itemNodes) :
    (f.findAt f.location n).bind Find.event? =
      if n.isNameless then some (.skipped f.name n.tag.point.row) else none := by
  have hkind : n.kind = "declaration" ∨ n.kind = "function_definition" := by
    simpa [Node.itemKinds] using (List.mem_filter.1 h).2
  unfold findAt Node.isNameless
  rcases hkind with hkind | hkind
  · cases n.functionName? <;> simp [hkind, Find.event?]
  · cases n.functionName? <;> simp [hkind, Find.event?]

theorem events_findsIn (f : SourceFile) {nodes : List Node} (h : nodes ⊆ f.itemNodes) :
    (f.findsIn nodes).filterMap Find.event? = f.skipsIn nodes := by
  unfold findsIn skipsIn
  rw [List.filterMap_filterMap]
  induction nodes with
  | nil => rfl
  | cons n nodes ih =>
    obtain ⟨hn, hnodes⟩ := List.cons_subset.1 h
    rw [List.filterMap_cons, f.event?_findAt hn, ih hnodes, List.filter_cons]
    cases n.isNameless <;> rfl

theorem events_finds (f : SourceFile) :
    f.finds.filterMap Find.event? = f.skipsIn f.itemNodes := by
  rw [finds_eq_findsIn]
  exact f.events_findsIn (List.Subset.refl _)

theorem items_eq_itemsIn (f : SourceFile) : f.items = f.itemsIn f.itemNodes := by
  rw [items, finds_eq_findsIn, items_findsIn]

/-- The items of a file, each from its node and the identifier that names it. -/
theorem items_eq_named (f : SourceFile) :
    f.items = f.named.map fun source => f.itemAt source.1 source.2 := by
  rw [items_eq_itemsIn, itemsIn, named, List.map_filterMap]
  congr 1
  funext n
  rw [item?, Option.map_map]
  rfl

end SourceFile

end PrototypeOrder
