/-
# Walking a tree with a cursor

A cursor stands on a node and remembers the way from the node it was placed on, so it
can step to the first child, to the next sibling and back to the parent, and never
leaves the tree it was placed on.  `Node.walk` visits a tree with a cursor; it needs no
stack besides the way back, however deep the tree is.

* `Node.walk_eq_preorder` : the walk comes to every node once, in pre-order.
-/
import PrototypeOrder.Source.Node

namespace PrototypeOrder

/-- One step of the way down: the node stepped into and its children to the right of the
one stepped on. -/
structure Crumb where
  parent : Node
  later : List Node
deriving Repr

/-- A node and the way to it, the last step first. -/
structure Cursor where
  node : Node
  path : List Crumb
deriving Repr

namespace Cursor

/-- A cursor on the node that is to be walked. -/
def place (n : Node) : Cursor := ⟨n, []⟩

/-- Steps to the first child, if there is one. -/
def firstChild? (c : Cursor) : Option Cursor :=
  match c.node.children with
  | [] => none
  | child :: later => some ⟨child, ⟨c.node, later⟩ :: c.path⟩

/-- Steps to the next sibling, unless the cursor stands on the last one or on the node it
was placed on. -/
def nextSibling? (c : Cursor) : Option Cursor :=
  match c.path with
  | ⟨parent, next :: later⟩ :: path => some ⟨next, ⟨parent, later⟩ :: path⟩
  | _ => none

/-- Steps to the parent, unless the cursor stands on the node it was placed on. -/
def parent? (c : Cursor) : Option Cursor :=
  match c.path with
  | [] => none
  | ⟨parent, _⟩ :: path => some ⟨parent, path⟩

/-- Steps of the walk.  A node is visited when the cursor comes to it from above or from
the left, and not again when the cursor comes back from below (`visited`).  The first
possible step is taken: down, to the right, up.  At most `fuel` steps are taken. -/
def walk : Nat → Cursor → Bool → List Node
  | 0, _, _ => []
  | fuel + 1, c, false =>
    c.node ::
      match c.firstChild? with
      | some d => walk fuel d false
      | none =>
        match c.nextSibling? with
        | some d => walk fuel d false
        | none =>
          match c.parent? with
          | some d => walk fuel d true
          | none => []
  | fuel + 1, c, true =>
    match c.nextSibling? with
    | some d => walk fuel d false
    | none =>
      match c.parent? with
      | some d => walk fuel d true
      | none => []

end Cursor

/-- A node and all nodes below it in the order a cursor comes to them.  Every node is
entered once and left once, which bounds the steps. -/
def Node.walk (n : Node) : List Node := Cursor.walk (2 * n.size) (Cursor.place n) false

/-- The nodes of a walk that are of one of some kinds. -/
def Node.walkKinds (n : Node) (kinds : List String) : List Node :=
  n.walk.filter fun m => m.kind ∈ kinds

/-! ## The walk is the pre-order -/

namespace Cursor

/-- What is still to be visited once the node under the cursor is done. -/
def ahead : List Crumb → List Node
  | [] => []
  | crumb :: path => Node.preorderAll crumb.later ++ ahead path

/-- How many steps that takes at most. -/
def cost : List Crumb → Nat
  | [] => 0
  | crumb :: path => 2 * Node.sizeAll crumb.later + 1 + cost path

/-- A walk on which enough steps are left visits all that is to be visited, from a node that
is entered and from a node that is done. -/
theorem walk_eq (fuel : Nat) :
    (∀ n path, 2 * n.size + cost path ≤ fuel + 1 →
      walk fuel ⟨n, path⟩ false = n.preorder ++ ahead path) ∧
    (∀ n path, cost path ≤ fuel → walk fuel ⟨n, path⟩ true = ahead path) := by
  induction fuel with
  | zero =>
    constructor
    · intro n path h
      obtain ⟨t, cs⟩ := n
      simp only [Node.size] at h
      omega
    · intro n path h
      cases path with
      | nil => rfl
      | cons crumb path =>
        simp only [cost] at h
        omega
  | succ fuel ih =>
    -- what follows a node that is done
    have next : ∀ n path, cost path ≤ fuel + 1 →
        (match nextSibling? ⟨n, path⟩ with
          | some d => walk fuel d false
          | none =>
            match parent? ⟨n, path⟩ with
            | some d => walk fuel d true
            | none => []) = ahead path := by
      intro n path h
      match path with
      | [] => rfl
      | ⟨parent, []⟩ :: path =>
        simp only [cost, Node.sizeAll] at h
        simp only [nextSibling?, parent?, ahead, Node.preorderAll, List.nil_append]
        exact ih.2 parent path (by omega)
      | ⟨parent, sibling :: later⟩ :: path =>
        simp only [cost, Node.sizeAll] at h
        simp only [nextSibling?, ahead, Node.preorderAll, List.append_assoc]
        exact ih.1 sibling (⟨parent, later⟩ :: path) (by simp only [cost]; omega)
    constructor
    · intro n path h
      obtain ⟨t, cs⟩ := n
      cases cs with
      | nil =>
        simp only [Node.size, Node.sizeAll] at h
        simp only [walk, firstChild?, Node.children, Node.preorder, Node.preorderAll,
          List.cons_append, List.nil_append]
        rw [next _ path (by omega)]
      | cons c cs =>
        simp only [Node.size, Node.sizeAll] at h
        simp only [walk, firstChild?, Node.children, Node.preorder, Node.preorderAll,
          List.cons_append, List.append_assoc]
        rw [ih.1 c (⟨.mk t (c :: cs), cs⟩ :: path) (by simp only [cost]; omega)]
        rfl
    · intro n path h
      simp only [walk]
      exact next n path h

end Cursor

/-- The walk comes to every node once, in pre-order. -/
theorem Node.walk_eq_preorder (n : Node) : n.walk = n.preorder := by
  have h := (Cursor.walk_eq (2 * n.size)).1 n [] (by simp only [Cursor.cost]; omega)
  simpa [Cursor.ahead, Cursor.place, Node.walk] using h

end PrototypeOrder
