/-
# Items come in document order

A tree that is laid out over the bytes of a file has its nodes in pre-order by where they begin.
The names of its functions come in that order too, although each is sought on its own: what an
outer node is named by stands before all that is declared inside it.

* `Point.ofOffset_mono` : a later offset is at a later point;
* `Node.Laid`, `Node.LaidOut` : what is asked of one node, and of all nodes of a tree;
* `Node.LaidOut.start_pairwise` : where the nodes begin;
* `Node.LaidOut.name_le_declared` : the name of a tree stands before all names declared in it;
* `Node.LaidOut.name_pairwise` : where the names of the nodes begin.
-/
import Mathlib.Data.List.Chain
import PrototypeOrder.C.Outline
import PrototypeOrder.Proofs.Grounding
import PrototypeOrder.Proofs.ItemNodes

namespace PrototypeOrder

/-! ## Points -/

namespace Point

/-- A point is in an earlier row than another, or in the same row and not in a later column. -/
def NotAfter (p q : Point) : Prop := p.row < q.row ∨ p.row = q.row ∧ p.column ≤ q.column

/-- The point at which some bytes end. -/
def endOf (bytes : Bytes) : Point :=
  ⟨bytes.count newlineByte, (bytes.reverse.takeWhile (· ≠ newlineByte)).length⟩

theorem ofOffset_eq (bytes : Bytes) (offset : Nat) :
    ofOffset bytes offset = endOf (bytes.take offset) := rfl

/-- More bytes do not end at an earlier point: a newline leads to another row, and without one the
column grows. -/
theorem endOf_append (xs ys : Bytes) : (endOf xs).NotAfter (endOf (xs ++ ys)) := by
  by_cases hmem : newlineByte ∈ ys
  · have hpos := List.count_pos_iff.2 hmem
    left
    show (xs.count newlineByte : Int) < ((xs ++ ys).count newlineByte : Nat)
    rw [List.count_append]
    omega
  · have hall : ∀ b ∈ ys.reverse, decide (b ≠ newlineByte) = true := by
      intro b hb
      rw [List.mem_reverse] at hb
      exact decide_eq_true fun h => hmem (h ▸ hb)
    right
    constructor
    · show (xs.count newlineByte : Int) = ((xs ++ ys).count newlineByte : Nat)
      rw [List.count_append, List.count_eq_zero_of_not_mem hmem, Nat.add_zero]
    · show ((xs.reverse.takeWhile _).length : Int) ≤ (((xs ++ ys).reverse.takeWhile _).length : Nat)
      rw [List.reverse_append, List.takeWhile_append_of_pos hall, List.length_append]
      omega

/-- A later offset is not at an earlier point. -/
theorem ofOffset_mono (bytes : Bytes) {a b : Nat} (h : a ≤ b) :
    (ofOffset bytes a).NotAfter (ofOffset bytes b) := by
  have htake := List.take_append_drop a (bytes.take b)
  rw [List.take_take, Nat.min_eq_left h] at htake
  rw [ofOffset_eq, ofOffset_eq, ← htake]
  exact endOf_append _ _

end Point

/-- The point of a place. -/
def Location.point (l : Location) : Point := ⟨l.row, l.column⟩

namespace Node

/-! ## Trees laid out over a file -/

/-- What is asked of each node of a tree that is laid out over the bytes of a file. -/
structure Laid (bytes : Bytes) (n : Node) : Prop where
  /-- it does not end before it begins -/
  span : n.tag.start ≤ n.tag.stop
  /-- its children lie within it -/
  within : ∀ c ∈ n.children, n.tag.start ≤ c.tag.start ∧ c.tag.stop ≤ n.tag.stop
  /-- each child begins where the one before it has ended, or later -/
  apart : n.children.IsChain fun c d => c.tag.stop ≤ d.tag.start
  /-- its point is that of its first byte -/
  point : n.tag.point = Point.ofOffset bytes n.tag.start
  /-- what a function declarator declares comes first in it -/
  declarator : n.kind = "function_declarator" →
    ∀ d, n.field? "declarator" = some d → n.children.head? = some d

/-- The first child with a role is the first child of all exactly when that one has the role, or
none has. -/
theorem field?_first_iff (n : Node) (role : String) :
    (∀ d, n.field? role = some d → n.children.head? = some d) ↔
      ((n.children.any fun c => c.tag.field = some role) = true →
        (n.children.head?.any fun c => c.tag.field = some role) = true) := by
  rw [field?]
  cases n.children with
  | nil => simp
  | cons first rest =>
    by_cases hfirst : first.tag.field = some role
    · simp [hfirst]
    · have hiff : (∀ d, rest.find? (fun c => c.tag.field = some role) = some d → first = d) ↔
          ∀ c ∈ rest, c.tag.field ≠ some role := by
        constructor
        · intro h c hc hrole
          cases hfind : rest.find? fun c => c.tag.field = some role with
          | none => exact absurd hrole (by simpa using List.find?_eq_none.1 hfind c hc)
          | some d =>
            have hd : d.tag.field = some role := by simpa using List.find?_some hfind
            rw [h d hfind] at hfirst
            exact hfirst hd
        · intro h d hfind
          have hd : d.tag.field = some role := by simpa using List.find?_some hfind
          exact absurd hd (h d (List.mem_of_find?_eq_some hfind))
      simpa [hfirst] using hiff

theorem laid_iff (bytes : Bytes) (n : Node) :
    n.Laid bytes ↔ n.tag.start ≤ n.tag.stop ∧
      (∀ c ∈ n.children, n.tag.start ≤ c.tag.start ∧ c.tag.stop ≤ n.tag.stop) ∧
      (n.children.IsChain fun c d => c.tag.stop ≤ d.tag.start) ∧
      n.tag.point = Point.ofOffset bytes n.tag.start ∧
      (n.kind = "function_declarator" →
        (n.children.any fun c => c.tag.field = some "declarator") = true →
          (n.children.head?.any fun c => c.tag.field = some "declarator") = true) := by
  rw [← field?_first_iff]
  constructor
  · rintro ⟨hspan, hwithin, hapart, hpoint, hdeclarator⟩
    exact ⟨hspan, hwithin, hapart, hpoint, hdeclarator⟩
  · rintro ⟨hspan, hwithin, hapart, hpoint, hdeclarator⟩
    exact ⟨hspan, hwithin, hapart, hpoint, hdeclarator⟩

instance (bytes : Bytes) (n : Node) : Decidable (n.Laid bytes) :=
  decidable_of_iff _ (laid_iff bytes n).symm

/-- Every node of a tree is laid out. -/
def LaidOut (bytes : Bytes) (t : Node) : Prop := ∀ n ∈ t.preorder, n.Laid bytes

instance (bytes : Bytes) (t : Node) : Decidable (t.LaidOut bytes) :=
  inferInstanceAs (Decidable (∀ n ∈ t.preorder, n.Laid bytes))

variable {bytes : Bytes} {tag : Tag} {cs : List Node}

theorem LaidOut.root {t : Node} (h : t.LaidOut bytes) : t.Laid bytes := h t (mem_preorder_self t)

theorem LaidOut.child (h : (mk tag cs).LaidOut bytes) {c : Node} (hc : c ∈ cs) :
    c.LaidOut bytes :=
  fun n hn => h n (mem_preorder_mk.2 (Or.inr ⟨c, hc, hn⟩))

/-- What lies in a tree lies within its root. -/
theorem LaidOut.within {t : Node} (h : t.LaidOut bytes) :
    ∀ n ∈ t.preorder, t.tag.start ≤ n.tag.start ∧ n.tag.stop ≤ t.tag.stop := by
  induction t using Node.induct with
  | h tag cs ih =>
    intro n hn
    rcases mem_preorder_mk.1 hn with rfl | ⟨c, hc, hn⟩
    · exact ⟨Nat.le_refl _, Nat.le_refl _⟩
    · have hchild := h.root.within c hc
      have hbelow := ih c hc (h.child hc) n hn
      omega

/-- Of two children the first one ends before the other begins, also if others lie between. -/
theorem LaidOut.pairwise (h : (mk tag cs).LaidOut bytes) :
    cs.Pairwise fun c d => c.tag.stop ≤ d.tag.start := by
  have hspan : ∀ c ∈ cs, c.tag.start ≤ c.tag.stop := fun c hc => (h.child hc).root.span
  have hchain : cs.IsChain fun c d => c.tag.stop ≤ d.tag.start := h.root.apart
  clear h
  induction hchain with
  | nil => exact .nil
  | singleton c => exact List.pairwise_singleton _ c
  | @cons_cons c d cs hcd _ ih =>
    have htail := ih fun e he => hspan e (List.mem_cons_of_mem c he)
    refine List.pairwise_cons.2 ⟨?_, htail⟩
    intro e he
    rcases List.mem_cons.1 he with rfl | he
    · exact hcd
    · have hd := hspan d (by simp)
      have hde := (List.pairwise_cons.1 htail).1 e he
      omega

/-- What lies in a tree begins before what lies in a tree that comes after it. -/
theorem LaidOut.start_le {c d : Node} (hc : c.LaidOut bytes) (hd : d.LaidOut bytes)
    (hcd : c.tag.stop ≤ d.tag.start) {n m : Node} (hn : n ∈ c.preorder) (hm : m ∈ d.preorder) :
    n.tag.start ≤ m.tag.start := by
  have hspan := (hc n hn).span
  have hn' := hc.within n hn
  have hm' := hd.within m hm
  omega

/-- A relation that holds between a root and all in its tree, and between what lies in one tree and
what lies in one that comes after it, holds along the pre-order. -/
theorem LaidOut.preorder_pairwise {R : Node → Node → Prop}
    (hroot : ∀ {t : Node}, t.LaidOut bytes → ∀ n ∈ t.preorder, R t n)
    (hapart : ∀ {c d n m : Node}, c.LaidOut bytes → d.LaidOut bytes →
      c.tag.stop ≤ d.tag.start → n ∈ c.preorder → m ∈ d.preorder → R n m)
    {t : Node} (h : t.LaidOut bytes) : t.preorder.Pairwise R := by
  induction t using Node.induct with
  | h tag cs ih =>
    rw [preorder_mk, List.pairwise_cons, List.pairwise_flatMap]
    refine ⟨?_, fun c hc => ih c hc (h.child hc), ?_⟩
    · intro n hn
      exact hroot h n (by rw [preorder_mk]; exact List.mem_cons_of_mem _ hn)
    · refine h.pairwise.imp_of_mem ?_
      intro c d hc hd hcd n hn m hm
      exact hapart (h.child hc) (h.child hd) hcd hn hm

/-- Nodes come in pre-order by where they begin. -/
theorem LaidOut.start_pairwise {t : Node} (h : t.LaidOut bytes) :
    t.preorder.Pairwise fun n m => n.tag.start ≤ m.tag.start := by
  refine LaidOut.preorder_pairwise ?_ ?_ h
  · intro t ht n hn
    exact (ht.within n hn).1
  · intro c d n m hc hd hcd hn hm
    exact hc.start_le hd hcd hn hm

/-! ## Names -/

/-- A name that is declared in a tree is declared by a node of it. -/
theorem exists_of_functionName? {t ident : Node} (h : t.functionName? = some ident) :
    ∃ n ∈ t.preorder, n.declaredName? = some ident := by
  rw [functionName?, walk_eq_preorder] at h
  exact List.exists_of_findSome?_eq_some h

/-- A tree without a name has no node that declares one. -/
theorem declaredName?_of_functionName? {t : Node} (h : t.functionName? = none) :
    ∀ n ∈ t.preorder, n.declaredName? = none := by
  rw [functionName?, walk_eq_preorder] at h
  exact List.findSome?_eq_none_iff.1 h

/-- What a node declares as a function does not begin before the node. -/
theorem Laid.start_le_declared {n ident : Node} (h : n.Laid bytes)
    (hident : n.declaredName? = some ident) : n.tag.start ≤ ident.tag.start := by
  have hmem : ident ∈ n.children :=
    List.mem_of_find?_eq_some (declaredName?_eq_some hident).2
  exact (h.within ident hmem).1

/-- A function declarator that declares a name has it first of all in it. -/
theorem LaidOut.name_le_of_root (h : (mk tag cs).LaidOut bytes) {ident : Node}
    (hident : (mk tag cs).declaredName? = some ident) {c n : Node} (hc : c ∈ cs)
    (hn : n ∈ c.preorder) : ident.tag.start ≤ n.tag.start := by
  obtain ⟨hkind, hfield⟩ := declaredName?_eq_some hident
  have hhead : cs.head? = some ident := h.root.declarator hkind ident hfield
  cases cs with
  | nil => cases hc
  | cons first rest =>
    obtain rfl : first = ident := by simpa using hhead
    have hfirst := h.child List.mem_cons_self
    rcases List.mem_cons.1 hc with rfl | hc'
    · exact (hfirst.within n hn).1
    · have hapart := (List.pairwise_cons.1 h.pairwise).1 c hc'
      exact hfirst.start_le (h.child hc) hapart (mem_preorder_self first) hn

/-- The name of a tree does not begin after any name that is declared in it. -/
theorem LaidOut.name_le_declared {t ident : Node} (h : t.LaidOut bytes)
    (hname : t.functionName? = some ident) {n ident' : Node} (hn : n ∈ t.preorder)
    (hident' : n.declaredName? = some ident') : ident.tag.start ≤ ident'.tag.start := by
  induction t using Node.induct with
  | h tag cs ih =>
    have hle := (h n hn).start_le_declared hident'
    rw [functionName?_mk] at hname
    cases hroot : declaredName? (mk tag cs) with
    | some first =>
      -- the root declares the name, and nothing below it comes before its first child
      obtain rfl : first = ident := by simpa [hroot] using hname
      rcases mem_preorder_mk.1 hn with rfl | ⟨c, hc, hn⟩
      · rw [hroot, Option.some.injEq] at hident'
        rw [hident']
      · exact Nat.le_trans (h.name_le_of_root hroot hc hn) hle
    | none =>
      -- the name is found in a child, and the children before that one declare nothing
      rw [hroot, Option.none_or] at hname
      obtain ⟨earlier, c, later, rfl, hc, hnone⟩ := List.findSome?_eq_some_iff.1 hname
      rcases mem_preorder_mk.1 hn with rfl | ⟨d, hd, hnd⟩
      · rw [hroot] at hident'
        cases hident'
      · rcases List.mem_append.1 hd with hd' | hd'
        · rw [declaredName?_of_functionName? (hnone d hd') n hnd] at hident'
          cases hident'
        · rcases List.mem_cons.1 hd' with rfl | hd'
          · exact ih d hd (h.child hd) hc hnd
          · have hapart := (List.pairwise_cons.1 (List.pairwise_append.1 h.pairwise).2.1).1 d hd'
            have hbefore := (h.child (by simp)).start_le (h.child hd) hapart
              (mem_of_functionName? hc) hnd
            exact Nat.le_trans hbefore hle

/-- The names of nodes come in pre-order by where they begin. -/
theorem LaidOut.name_pairwise {t : Node} (h : t.LaidOut bytes) :
    t.preorder.Pairwise fun n m => ∀ a ∈ n.functionName?, ∀ b ∈ m.functionName?,
      a.tag.start ≤ b.tag.start := by
  refine LaidOut.preorder_pairwise ?_ ?_ h
  · intro t ht n hn a ha b hb
    obtain ⟨m, hm, hdeclared⟩ := exists_of_functionName? hb
    exact ht.name_le_declared ha (mem_preorder_trans hm t hn) hdeclared
  · intro c d n m hc hd hcd hn hm a ha b hb
    exact hc.start_le hd hcd (mem_preorder_trans (mem_of_functionName? ha) c hn)
      (mem_preorder_trans (mem_of_functionName? hb) d hm)

end Node

/-! ## Items -/

namespace SourceFile

variable {f : SourceFile}

/-- The nodes that items are read from are nodes of the tree, and so are their names. -/
theorem mem_of_mem_named {source : Node × Node} (h : source ∈ f.named) :
    source.1 ∈ f.tree.preorder ∧ source.2 ∈ f.tree.preorder := by
  obtain ⟨n, hn, hsource⟩ := List.mem_filterMap.1 h
  obtain ⟨ident, hident, rfl⟩ := Option.map_eq_some_iff.1 hsource
  have hmem := ((mem_itemNodes_iff f n).1 hn).1
  exact ⟨hmem, Node.mem_preorder_trans (Node.mem_of_functionName? hident) f.tree hmem⟩

/-- Nodes that items are read from, and their names, come by where they begin. -/
theorem named_pairwise (h : f.tree.LaidOut f.bytes) :
    f.named.Pairwise fun s s' =>
      s.1.tag.start ≤ s'.1.tag.start ∧ s.2.tag.start ≤ s'.2.tag.start := by
  have hboth := h.start_pairwise.and h.name_pairwise
  rw [named, List.pairwise_filterMap, itemNodes, Node.walkKinds, Node.walk_eq_preorder]
  refine (hboth.filter _).imp ?_
  rintro n m ⟨hstart, hname⟩ s hs s' hs'
  obtain ⟨a, ha, rfl⟩ := Option.map_eq_some_iff.1 hs
  obtain ⟨b, hb, rfl⟩ := Option.map_eq_some_iff.1 hs'
  exact ⟨hstart, hname a ha b hb⟩

theorem location_itemAt (f : SourceFile) (n ident : Node) :
    (f.itemAt n ident).location = f.location ident := by
  rw [itemAt]
  split
  · rfl
  · rfl

/-- Of two nodes the one that begins first is at the earlier place. -/
theorem location_notAfter (h : f.tree.LaidOut f.bytes) {n m : Node} (hn : n ∈ f.tree.preorder)
    (hm : m ∈ f.tree.preorder) (hle : n.tag.start ≤ m.tag.start) :
    (f.location n).point.NotAfter (f.location m).point := by
  show n.tag.point.NotAfter m.tag.point
  rw [(h n hn).point, (h m hm).point]
  exact Point.ofOffset_mono f.bytes hle

end SourceFile

/-- **Document order.**  In a file whose tree is laid out over its bytes, the nodes that the items
are read from come one after the other, in rows and columns, and so do the names of the items,
however deep one node lies inside another. -/
theorem items_in_document_order (f : SourceFile) (h : f.tree.LaidOut f.bytes) :
    f.items = f.named.map (fun source => f.itemAt source.1 source.2) ∧
      (f.named.Pairwise fun s s' =>
        (f.location s.1).point.NotAfter (f.location s'.1).point) ∧
      f.items.Pairwise fun i i' => i.location.point.NotAfter i'.location.point := by
  refine ⟨f.items_eq_named, ?_, ?_⟩
  · refine (SourceFile.named_pairwise h).imp_of_mem ?_
    intro s s' hs hs' hle
    exact SourceFile.location_notAfter h (SourceFile.mem_of_mem_named hs).1
      (SourceFile.mem_of_mem_named hs').1 hle.1
  · rw [f.items_eq_named, List.pairwise_map]
    refine (SourceFile.named_pairwise h).imp_of_mem ?_
    intro s s' hs hs' hle
    rw [SourceFile.location_itemAt, SourceFile.location_itemAt]
    exact SourceFile.location_notAfter h (SourceFile.mem_of_mem_named hs).2
      (SourceFile.mem_of_mem_named hs').2 hle.2

/-- A body `f` with the prototypes `g` and `h` inside it, over two rows: the body and its name come
first, although the body ends last. -/
theorem items_in_document_order_nested :
    let bytes := Utf8.encode "int f()\x7bint g();\nint h();\x7d"
    let f : SourceFile := ⟨"f.c", bytes, C.parse bytes⟩
    f.items.map Item.name = ["f", "g", "h"] ∧ f.tree.LaidOut bytes ∧
      f.items.Pairwise fun i i' => i.location.point.NotAfter i'.location.point := by
  intro bytes f
  have facts : f.items.map Item.name = ["f", "g", "h"] ∧ f.tree.LaidOut bytes := by
    decide +kernel
  exact ⟨facts.1, facts.2, (items_in_document_order f facts.2).2.2⟩

end PrototypeOrder
