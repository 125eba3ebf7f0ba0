/-
# A file and its syntax tree

What is read off the tree of a file: the text and place of a node, the first part that
could not be read, and the prototypes and bodies.

A prototype is a `declaration` node and a body a `function_definition` node, at any depth,
in the order of a walk.  Its name is the first identifier below it that a
`function_declarator` declares; a node without one is passed over.
-/
import PrototypeOrder.Source.Cursor
import PrototypeOrder.Source.Item

namespace PrototypeOrder

namespace Node

/-- The kinds of node that prototypes and bodies are read from. -/
def itemKinds : List String := ["declaration", "function_definition"]

/-- The first node in error.  A node that does not raise its error flag is not searched. -/
def errorNode? (n : Node) : Option Node :=
  if n.tag.hasError then n.walk.find? (·.tag.isError) else none

/-- The identifier that a node declares as a function, if it is a function declarator. -/
def declaredName? (n : Node) : Option Node :=
  if n.kind = "function_declarator" then
    (n.field? "declarator").filter fun d => d.kind = "identifier"
  else none

/-- The first identifier that the node or a node below it declares as a function. -/
def functionName? (n : Node) : Option Node := n.walk.findSome? declaredName?

/-- Whether a node has the storage class `static`; only its own children count. -/
def isStatic (n : Node) (file : Bytes) : Bool :=
  n.children.any fun c => c.kind = "storage_class_specifier" && c.text file = "static"

end Node

/-- A file that has been parsed. -/
structure SourceFile where
  name : String
  bytes : Bytes
  tree : Node
deriving Repr

namespace SourceFile

/-- The rows of the file as text. -/
def rows (f : SourceFile) : List (List Char) := Lines.ofBytes f.bytes

/-- The place of a node in a file with given rows. -/
def locationIn (f : SourceFile) (rows : List (List Char)) (n : Node) : Location :=
  { row := n.tag.point.row
    column := n.tag.point.column
    file := f.name
    lineText := Lines.lineAt rows n.tag.point.row }

/-- The place of a node. -/
def location (f : SourceFile) (n : Node) : Location := f.locationIn f.rows n

/-- The nodes that prototypes and bodies are read from, in the order of a walk. -/
def itemNodes (f : SourceFile) : List Node := f.tree.walkKinds Node.itemKinds

/-- What one such node gives; `place` tells where a node is. -/
def findAt (f : SourceFile) (place : Node → Location) (n : Node) : Option Find :=
  if n.kind = "declaration" then
    n.functionName?.map fun ident =>
      .item (.declaration ⟨ident.text f.bytes, place ident, some (place n)⟩)
  else
    match n.functionName? with
    | some ident =>
      some (.item (.definition ⟨ident.text f.bytes, place ident, n.isStatic f.bytes⟩))
    | none => some (.nameless f.name n.tag.point.row)

/-- What the reading of the file comes across, in order. -/
def finds (f : SourceFile) : List Find :=
  let rows := f.rows
  f.itemNodes.filterMap (f.findAt (f.locationIn rows))

/-- The prototypes and bodies of the file, in order. -/
def items (f : SourceFile) : List Item := f.finds.filterMap Find.item?

theorem finds_eq (f : SourceFile) : f.finds = f.itemNodes.filterMap (f.findAt f.location) := rfl

end SourceFile

end PrototypeOrder
