/-
# Nodes around items

A tree has nodes that only hold others together: a block of declarations with a linkage, a branch
of a condition, the file itself.  What is read off such a node is what is read off its children,
one after the other, so putting some of the children into a node of their own changes nothing.

* `SourceFile.finds_withTree_mk` : what is read off a tree, by its structure;
* `Node.Wrap`, `Node.Wraps` : some siblings are put into a node of their own, once and many times;
* `SourceFile.finds_of_wrap` : what is read off the tree is the same;
* `SourceFile.check_congr` : a check depends on what is read off the two files only.
-/
import Mathlib.Logic.Relation
import PrototypeOrder.C.Outline
import PrototypeOrder.Proofs.ItemNodes
import PrototypeOrder.Proofs.Soundness

namespace PrototypeOrder

namespace SourceFile

/-! ## Reading by structure -/

/-- A tree gives what its root gives, if that is a node to read from, and then what the trees below
it give. -/
theorem finds_withTree_mk (f : SourceFile) (tag : Tag) (cs : List Node) :
    (f.withTree (.mk tag cs)).finds =
      (if tag.kind ∈ Node.itemKinds then (f.findAt f.location (.mk tag cs)).toList else []) ++
        cs.flatMap fun c => (f.withTree c).finds := by
  have hfinds : ∀ t, (f.withTree t).finds =
      (t.preorder.filter fun m => decide (m.kind ∈ Node.itemKinds)).filterMap
        (f.findAt f.location) := by
    intro t
    rw [finds_eq, itemNodes, Node.walkKinds, Node.walk_eq_preorder]
    rfl
  have hkind : (Node.mk tag cs).kind = tag.kind := rfl
  simp only [hfinds, Node.preorder_mk, List.filter_cons, List.filter_flatMap, hkind]
  by_cases h : tag.kind ∈ Node.itemKinds
  · rw [if_pos (decide_eq_true h), if_pos h, List.filterMap_cons, List.filterMap_flatMap]
    cases f.findAt f.location (.mk tag cs) <;> rfl
  · rw [if_neg (by simp [h]), if_neg h, List.filterMap_flatMap, List.nil_append]

/-- A root that nothing is read from gives what the trees below it give. -/
theorem finds_withTree_of_not_item (f : SourceFile) {tag : Tag} (cs : List Node)
    (h : tag.kind ∉ Node.itemKinds) :
    (f.withTree (.mk tag cs)).finds = cs.flatMap fun c => (f.withTree c).finds := by
  rw [finds_withTree_mk, if_neg h, List.nil_append]

end SourceFile

/-! ## Roles -/

namespace Node

/-- The node without the role it has in its parent. -/
def bare : Node → Node
  | mk tag cs => mk { tag with field := none } cs

/-- The role of a node does not matter for the names below it. -/
theorem functionName?_bare (n : Node) : n.bare.functionName? = n.functionName? := by
  obtain ⟨tag, cs⟩ := n
  rw [bare, functionName?_mk, functionName?_mk]
  rfl

end Node

namespace SourceFile

theorem findAt_bare (f : SourceFile) (n : Node) :
    f.findAt f.location n.bare = f.findAt f.location n := by
  rw [findAt, findAt, Node.functionName?_bare]
  obtain ⟨tag, cs⟩ := n
  rfl

/-- The role of the root does not matter for what is read off a tree. -/
theorem finds_withTree_bare (f : SourceFile) (n : Node) :
    (f.withTree n.bare).finds = (f.withTree n).finds := by
  obtain ⟨tag, cs⟩ := n
  have hroot := f.findAt_bare (.mk tag cs)
  rw [Node.bare] at hroot ⊢
  rw [finds_withTree_mk, finds_withTree_mk, hroot]

/-- Trees that differ in the roles of their roots only give the same. -/
theorem finds_of_bare (f : SourceFile) {run inner : List Node}
    (h : inner.map Node.bare = run.map Node.bare) :
    (inner.flatMap fun c => (f.withTree c).finds) = run.flatMap fun c => (f.withTree c).finds := by
  have hbare : ∀ cs : List Node, (cs.flatMap fun c => (f.withTree c).finds) =
      (cs.map Node.bare).flatMap fun c => (f.withTree c).finds := by
    intro cs
    rw [List.flatMap_map]
    exact congrArg (List.flatMap · cs) (funext fun c => (f.finds_withTree_bare c).symm)
  rw [hbare inner, hbare run, h]

end SourceFile

/-! ## Wrapping -/

namespace Node

/-- A run of siblings in a tree is put into a node of their own.  Neither that node nor one above it
is a prototype or a body.  The siblings may have other roles in the new node than in the old. -/
inductive Wrap : Node → Node → Prop where
  /-- children of the root are wrapped -/
  | here {tag wrapper : Tag} (before : List Node) {run inner : List Node} (after : List Node)
      (hroot : tag.kind ∉ itemKinds) (hwrapper : wrapper.kind ∉ itemKinds)
      (hinner : inner.map bare = run.map bare) :
      Wrap (mk tag (before ++ run ++ after)) (mk tag (before ++ mk wrapper inner :: after))
  /-- nodes further down are wrapped -/
  | inside {tag : Tag} (before : List Node) {c c' : Node} (after : List Node)
      (hroot : tag.kind ∉ itemKinds) (hchild : Wrap c c') :
      Wrap (mk tag (before ++ c :: after)) (mk tag (before ++ c' :: after))

/-- Runs of siblings are put into nodes of their own, one run after the other. -/
def Wraps : Node → Node → Prop := Relation.ReflTransGen Wrap

/-- All children of a node are put into one. -/
theorem Wrap.all {t : Node} {wrapper : Tag} (ht : t.kind ∉ itemKinds)
    (hwrapper : wrapper.kind ∉ itemKinds) : Wrap t (mk t.tag [mk wrapper t.children]) := by
  obtain ⟨tag, cs⟩ := t
  have h : Wrap (mk tag ([] ++ cs ++ [])) (mk tag ([] ++ mk wrapper cs :: [])) :=
    Wrap.here [] [] ht hwrapper rfl
  rwa [List.nil_append, List.append_nil] at h

end Node

namespace SourceFile

/-- Wrapping changes nothing in what is read off a tree. -/
theorem finds_of_wrap (f : SourceFile) {t t' : Node} (h : t.Wrap t') :
    (f.withTree t').finds = (f.withTree t).finds := by
  induction h with
  | here before after hroot hwrapper hinner =>
    -- the new node gives nothing of its own, so what is in it comes where the run was
    rw [finds_withTree_of_not_item f _ hroot, finds_withTree_of_not_item f _ hroot]
    rw [List.flatMap_append, List.flatMap_cons, finds_withTree_of_not_item f _ hwrapper,
      finds_of_bare f hinner]
    rw [List.flatMap_append, List.flatMap_append, List.append_assoc]
  | inside before after hroot hchild ih =>
    rw [finds_withTree_of_not_item f _ hroot, finds_withTree_of_not_item f _ hroot]
    rw [List.flatMap_append, List.flatMap_cons, ih, List.flatMap_append, List.flatMap_cons]

theorem finds_of_wraps (f : SourceFile) {t t' : Node} (h : t.Wraps t') :
    (f.withTree t').finds = (f.withTree t).finds := by
  induction h with
  | refl => rfl
  | tail _ hlast ih => rw [finds_of_wrap f hlast, ih]

/-! ## Checks -/

/-- Two trees for the same bytes of which the same is read, neither with a part that could not be
read. -/
structure ReadAlike (parse parse' : Bytes → Node) (name : String) (b : Bytes) : Prop where
  readable : (parse b).errorNode? = none
  readable' : (parse' b).errorNode? = none
  finds : (SourceFile.mk name b (parse b)).finds = (SourceFile.mk name b (parse' b)).finds

/-- A check depends on what is read off the header and off the source only. -/
theorem check_congr (f f' : SourceFile) (hname : f.name = f'.name) (hfinds : f.finds = f'.finds)
    {parse parse' : Bytes → Node} {sourceName : String} {source? : Option Contents}
    (hsource : ∀ b, source? = some (.bytes b) → ReadAlike parse parse' sourceName b) :
    f.check parse sourceName source? = f'.check parse' sourceName source? := by
  have hparsed : ∀ m : Matcher,
      ((parseSource parse sourceName source?).andThen fun source => m.settle source.finds) =
        (parseSource parse' sourceName source?).andThen fun source => m.settle source.finds := by
    intro m
    cases source? with
    | none => rfl
    | some contents =>
      cases contents with
      | other typeName => rfl
      | bytes b =>
        obtain ⟨hread, hread', hfinds⟩ := hsource b rfl
        rw [parseSource, parseSource, parseChecked_of_readable sourceName hread,
          parseChecked_of_readable sourceName hread']
        simp only [Logged.andThen, hfinds]
  rw [check, check, ← hfinds, ← hname]
  simp only [hparsed]

end SourceFile

/-- Checks of files of which the same is read have the same outcome and the same record. -/
theorem validate_congr {parse parse' : Bytes → Node} {headerName : String} {header : Bytes}
    {sourceName? : Option String} {source? : Option Contents}
    (hheader : SourceFile.ReadAlike parse parse' headerName header)
    (hsource : ∀ b, source? = some (.bytes b) →
      SourceFile.ReadAlike parse parse' (sourceName?.getD headerName) b) :
    validate parse headerName (.bytes header) sourceName? source? =
      validate parse' headerName (.bytes header) sourceName? source? := by
  rw [validate_of_readable hheader.readable, validate_of_readable hheader.readable']
  have hcheck := SourceFile.check_congr ⟨headerName, header, parse header⟩
    ⟨headerName, header, parse' header⟩ rfl hheader.finds hsource
  simp only [hcheck]

/-- **Nodes around items do not matter.**  A file whose root is neither a prototype nor a body has
the items of the trees below its root, one tree after the other.  Putting runs of siblings into
nodes of their own, any number of times and at any depth outside of prototypes and bodies, leaves
the items of a file as they are.  So, if the trees of a header and of a source are changed in this
way and are free of errors before and after, their check comes to the same end with the same
record. -/
theorem items_blind_to_wrappers (f : SourceFile) :
    (f.tree.kind ∉ Node.itemKinds →
      f.items = f.tree.children.flatMap fun c => (f.withTree c).items) ∧
    (∀ t, f.tree.Wraps t → (f.withTree t).items = f.items) ∧
    ∀ (parse parse' : Bytes → Node) (headerName : String) (header : Bytes)
      (sourceName? : Option String) (source? : Option Contents),
      (∀ b, b = header ∨ source? = some (.bytes b) → (parse b).errorNode? = none ∧
        (parse' b).errorNode? = none ∧ (parse b).Wraps (parse' b)) →
      validate parse headerName (.bytes header) sourceName? source? =
        validate parse' headerName (.bytes header) sourceName? source? := by
  refine ⟨?_, ?_, ?_⟩
  · intro hroot
    have hfinds := f.finds_withTree_of_not_item f.tree.children hroot
    rw [Node.mk_tag_children] at hfinds
    show (f.withTree f.tree).finds.filterMap Find.item? = _
    rw [hfinds, List.filterMap_flatMap]
    rfl
  · intro t ht
    rw [SourceFile.items, f.finds_of_wraps ht]
    rfl
  · intro parse parse' headerName header sourceName? source? h
    have halike : ∀ (name : String) (b : Bytes), b = header ∨ source? = some (.bytes b) →
        SourceFile.ReadAlike parse parse' name b := by
      intro name b hb
      obtain ⟨hread, hread', hwraps⟩ := h b hb
      exact ⟨hread, hread', ((SourceFile.mk name b (parse b)).finds_of_wraps hwraps).symm⟩
    exact validate_congr (halike headerName header (Or.inl rfl))
      fun b hb => halike _ b (Or.inr hb)

/-- A header with a prototype and a body `a`, all of it put into one branch of a condition. -/
theorem items_blind_to_wrappers_condition :
    let header := Utf8.encode "int a();int a()\x7b\x7d"
    let wrapper : Tag := ⟨"preproc_ifdef", 0, 17, ⟨0, 0⟩, none, false, false, false⟩
    let wrapped (b : Bytes) : Node := .mk (C.parse b).tag [.mk wrapper (C.parse b).children]
    itemsOf C.parse "f.h" header ≠ [] ∧
      itemsOf wrapped "f.h" header = itemsOf C.parse "f.h" header ∧
      validate C.parse "f.h" (.bytes header) none none =
        validate wrapped "f.h" (.bytes header) none none := by
  intro header wrapper wrapped
  have facts : itemsOf C.parse "f.h" header ≠ [] ∧
      (C.parse header).kind ∉ Node.itemKinds ∧
      (C.parse header).errorNode?.isNone ∧ (wrapped header).errorNode?.isNone := by
    decide +kernel
  simp only [Option.isNone_iff_eq_none] at facts
  obtain ⟨hitems, hkind, hread, hread'⟩ := facts
  have hwraps : (C.parse header).Wraps (wrapped header) :=
    .single (Node.Wrap.all hkind (by decide))
  obtain ⟨-, hsame, hcheck⟩ := items_blind_to_wrappers ⟨"f.h", header, C.parse header⟩
  refine ⟨hitems, hsame _ hwraps, ?_⟩
  apply hcheck
  rintro b (rfl | hb)
  · exact ⟨hread, hread', hwraps⟩
  · cases hb

end PrototypeOrder
