/-
# Syntax trees

A syntax tree is what a reader of the C language makes of a file.  Nothing is assumed
of it here: spans, points and flags may be anything, since the tree comes from outside.

* `Node.preorder` : a node and all below it, each before its children;
* `Node.field?` : the first child with a given role;
* `Node.build` : a node whose error flag follows from its own flags and its children.
-/
import PrototypeOrder.Source.Location

namespace PrototypeOrder

/-- What a node says about itself. -/
structure Tag where
  /-- the grammatical category -/
  kind : String
  /-- offset of the first byte -/
  start : Nat
  /-- offset after the last byte -/
  stop : Nat
  /-- where it starts, in rows and columns -/
  point : Point
  /-- the role it has in its parent -/
  field : Option String
  /-- stands for text that could not be read -/
  isError : Bool
  /-- stands for a token that is not there -/
  isMissing : Bool
  /-- announces that it or something below it is in error or missing -/
  hasError : Bool
deriving DecidableEq, Repr

/-- A node of a syntax tree. -/
inductive Node where
  | mk (tag : Tag) (children : List Node)
deriving Repr

namespace Node

/-- What the node says about itself. -/
def tag : Node → Tag
  | mk t _ => t

/-- The nodes directly below. -/
def children : Node → List Node
  | mk _ cs => cs

/-- The grammatical category. -/
def kind (n : Node) : String := n.tag.kind

@[simp]
theorem tag_mk (t : Tag) (cs : List Node) : (mk t cs).tag = t := rfl

@[simp]
theorem children_mk (t : Tag) (cs : List Node) : (mk t cs).children = cs := rfl

@[simp]
theorem mk_tag_children (n : Node) : mk n.tag n.children = n := by cases n; rfl

/-- The first child with a given role. -/
def field? (n : Node) (role : String) : Option Node :=
  n.children.find? fun c => c.tag.field = some role

/-- The bytes of a node; what lies outside the file is cut off. -/
def bytes (n : Node) (file : Bytes) : Bytes :=
  (file.drop n.tag.start).take (n.tag.stop - n.tag.start)

/-- The text of a node. -/
def text (n : Node) (file : Bytes) : String := Utf8.text (n.bytes file)

/-- A node whose error flag is raised exactly when it is in error or missing itself or a
child of it raises its flag. -/
def build (tag : Tag) (children : List Node) : Node :=
  mk { tag with hasError := tag.isError || tag.isMissing || children.any (·.tag.hasError) } children

/-! ## Pre-order -/

mutual

/-- A node and all nodes below it, each before its children, children from left to
right. -/
def preorder : Node → List Node
  | mk t cs => mk t cs :: preorderAll cs

/-- The pre-orders of some trees, one after the other. -/
def preorderAll : List Node → List Node
  | [] => []
  | c :: cs => preorder c ++ preorderAll cs

end

mutual

/-- The number of nodes of a tree. -/
def size : Node → Nat
  | mk _ cs => sizeAll cs + 1

/-- The number of nodes of some trees. -/
def sizeAll : List Node → Nat
  | [] => 0
  | c :: cs => size c + sizeAll cs

end

theorem preorder_eq (n : Node) : n.preorder = n :: preorderAll n.children := by
  cases n; rw [preorder]; rfl

/-- The pre-orders of some trees, as a concatenation. -/
theorem preorderAll_eq_flatMap (xs : List Node) : preorderAll xs = xs.flatMap preorder := by
  induction xs with
  | nil => simp [preorderAll]
  | cons x xs ih => simp [preorderAll, ih]

end Node

end PrototypeOrder
