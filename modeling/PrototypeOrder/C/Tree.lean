/-
# Nodes of a C file

How nodes are made of tokens, and how two readings of the same text are weighed: the heavier
one is the right one.  An asterisk that makes a pointer speaks for a reading, brackets around
a declarator and a type written like a call speak against it.
-/
import PrototypeOrder.C.Input
import PrototypeOrder.Source.Node

namespace PrototypeOrder.C

/-! ## Making nodes -/

/-- A node that begins at a place. -/
def nodeAt (kind : String) (start : Place) (stop : Nat) (children : List Node) : Node :=
  .build ⟨kind, start.offset, stop, start.point, none, false, false, false⟩ children

/-- A node made of one token. -/
def leaf (kind : String) (t : Token) : Node := nodeAt kind t.start t.stop []

/-- A node in error. -/
def errorAt (start : Place) (stop : Nat) : Node :=
  .build ⟨"ERROR", start.offset, stop, start.point, none, true, false, false⟩ []

/-- A semicolon that is not there, before the next token. -/
def missing (i : Input) : List Node :=
  match i.rest with
  | t :: _ => [.build ⟨";", i.last, i.last, t.start.point, none, false, true, false⟩ []]
  | [] => [.build ⟨";", i.last, i.last, ⟨0, 0⟩, none, false, true, false⟩ []]

/-- A node with a role in its parent. -/
def inRole (role : String) (n : Node) : Node := .mk { n.tag with field := some role } n.children

/-- A node that begins where the input `i` begins and ends where `j` has been reached. -/
def between (kind : String) (i j : Input) (children : List Node) : Node :=
  match i.rest with
  | t :: _ => nodeAt kind t.start j.last children
  | [] => nodeAt kind ⟨i.last, 0, 0⟩ j.last children

/-! ## Declarators -/

/-- Whether a declarator has no name in it. -/
def isAbstract (n : Node) : Bool := n.kind.startsWith "abstract"

/-- The kind of a declarator around another one, which may be missing or have no name. -/
def declaratorKind (kind : String) (inner : Option Node) : String :=
  if inner.any fun n => !isAbstract n then kind else "abstract_" ++ kind

/-- The declarator inside another one. -/
def innerDeclarator (inner : Option Node) : List Node := (inner.map (inRole "declarator")).toList

/-- Whether parameters could also be a list of names whose types follow. -/
def areNames (parameters : List Node) : Bool :=
  parameters.all fun p => p.kind = "variadic_parameter" ||
    p.kind = "parameter_declaration" && p.children.map Node.kind = ["type_identifier"]

/-- Whether words follow the parameters of a function. -/
def hasRemarks (declarator : Node) : Bool :=
  declarator.kind = "function_declarator" &&
    declarator.children.any fun c => c.tag.field.isNone && c.kind = "identifier"

/-- Whether a declarator is one that declarations of the parameters can follow. -/
def takesDeclarations (declarator : Node) : Bool :=
  declarator.kind = "function_declarator" &&
    (declarator.field? "parameters").any fun ps => areNames ps.children

/-! ## Weighing readings -/

/-- What a node adds to the weight of a reading. -/
def weightOf (kind : String) : Int :=
  if kind = "pointer_declarator" || kind = "abstract_pointer_declarator" then 1
  else if kind = "parenthesized_declarator" then -10
  else if kind = "macro_type_specifier" then -1
  else 0

/-- The weight of a reading. -/
def weight (nodes : List Node) : Int :=
  (Node.preorderAll nodes).foldr (fun n total => weightOf n.kind + total) 0

end PrototypeOrder.C
