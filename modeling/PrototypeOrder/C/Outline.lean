/-
# The outline of a C file

`parse` reads the tokens of a C file into a syntax tree: declarations with their
specifiers and declarators, function definitions with their bodies, statements as far as
declarations can be inside them.  Of expressions the statements and types inside them are
kept.

Some texts can be read in two ways, as a declaration or as an expression, as the name of a
type or as a value.  Such readings are tried strictly, each may fail, and the heavier one
counts.  What a word of its own has begun (a statement, the members of a type, an initial
value) is read to its end in any case; what cannot be read there is passed over.

What cannot be read where an item may begin becomes a node in error: a run of stray
characters, a closing brace without an opening one, an item without its end.  A semicolon
that is missing before a closing brace becomes a missing node.

The functions call each other on ever shorter input; `fuel` bounds the depth of the calls
and is taken from the number of tokens.
-/
import PrototypeOrder.C.Lexer
import PrototypeOrder.C.Tree

namespace PrototypeOrder.C

/-- Where a declarator stands, which decides on the words after the parameters of a
function. -/
inductive Standing where
  /-- it belongs to a declaration or a definition -/
  | outermost
  /-- the same, and declarations of the parameters follow: no words can -/
  | bare
  /-- it is inside another declarator or in a list of parameters -/
  | inside
deriving DecidableEq, Repr

/-- An expression that has been read: what is kept of it, whether it is two operands with an
operator between them, and what follows. -/
structure Expression where
  nodes : List Node
  binary : Bool
  rest : Input

/-- An operand that has been read: what is kept of it, whether a value can be assigned to it,
and what follows. -/
structure Operand where
  nodes : List Node
  assignable : Bool
  rest : Input

/-- The operators between two operands, those that assign apart. -/
def binaryMarks : List String :=
  ["+", "-", "*", "/", "%", "||", "&&", "|", "^", "&", "==", "!=", "<", ">", "<=", ">=", "<<",
    ">>"]

/-- The operators that assign. -/
def assignmentMarks : List String :=
  ["=", "+=", "-=", "*=", "/=", "%=", "<<=", ">>=", "&=", "^=", "|="]

/-- The operators before an operand. -/
def leadingMarks : List String := ["!", "~", "-", "+", "*", "&", "++", "--", "&&"]

/-- The operators before an operand that are also operators after one or between two. -/
def sharedMarks : List String := ["-", "+", "*", "&", "++", "--", "("]

/-- Whether an item may be a declaration: it begins with a word that goes with a type, or with
a name and something that can follow the name of a type. -/
def mayDeclare (i : Input) : Bool :=
  i.atAttributeList || i.at? fun t => t.isName &&
    (t.role.isSpecifier ||
      !t.role.beginsOperand && (i.skip.at? (fun u => u.isName || u.isOneOf ["*", "("]) ||
        i.skip.atAttributeList))

/-- Whether an item has to be a declaration: it begins with a word that no expression begins
with. -/
def onlyDeclares (i : Input) : Bool :=
  i.at? fun t => t.isName && t.role.isSpecifier && t.text ≠ "__extension__"

/-- Whether the next token begins an operand and cannot follow one. -/
def atOperand (i : Input) : Bool := i.at? fun t => t.cls ≠ .mark || t.isOneOf ["!", "~"]

/-- Whether a bracket that could hold the name of a type or a value is followed by an operand,
after further brackets if there are any; it then holds the name of a type. -/
def beforeOperand (fuel : Nat) (i : Input) : Bool :=
  let j := i.skipGroups fuel
  atOperand j || j.atMark "\x7b" ||
    j.atMarks ["++", "--"] && j.skip.at? (fun t => t.cls ≠ .mark || t.isMark "(")

/-- The weight of what a declaration says before and inside its declarators. -/
def declaredWeight (n : Node) : Int :=
  weight (n.children.filter fun c =>
    c.tag.field = some "declarator" || c.kind = "macro_type_specifier")

/-- Whether a statement other than an expression begins here: with a mark, with a word of its
own, or with a label. -/
def beginsStatement (i : Input) : Bool :=
  i.atMarks [";", "\x7b"] || i.atRole .statement ||
    i.atNameBut (fun r => r.isSpecifier || r.beginsOperand) && i.skip.atMark ":"

mutual

-- ## Specifiers

/-- Storage classes, qualifiers, attributes and calling conventions. -/
def modifiers (fuel : Nat) (i : Input) : List Node × Input :=
  match fuel with
  | 0 => ([], i)
  | fuel + 1 =>
    match i.rest with
    | [] => ([], i)
    | t :: _ =>
      let one (n : Node) (j : Input) : List Node × Input :=
        let (nodes, k) := modifiers fuel j
        (n :: nodes, k)
      if t.plays .storage then one (leaf "storage_class_specifier" t) i.skip
      else if t.plays .qualifier then one (leaf "type_qualifier" t) i.skip
      else if t.plays .convention then one (leaf "ms_call_modifier" t) i.skip
      else if t.plays .attribute then
        let (inner, j) := aside fuel i.skip
        one (between "attribute_specifier" i j inner) j
      else if i.atAttributeList then
        one (between "attribute_declaration" i i.skipGroup []) i.skipGroup
      else ([], i)

/-- What stands in brackets after an attribute, if anything does. -/
def aside (fuel : Nat) (i : Input) : List Node × Input :=
  match fuel with
  | 0 => ([], i)
  | fuel + 1 =>
    if i.atMark "(" then
      match typeName fuel [")"] i.skip with
      | some (n, j) => ([n], j.skip)
      | none => group fuel ")" i.skip
    else ([], i)

/-- The specifiers of a declaration: one type, with modifiers before and after it.  There may
be more than one reading; the heaviest is the first. -/
def specifiers (fuel : Nat) (i : Input) : List (List Node × Input) :=
  match fuel with
  | 0 => []
  | fuel + 1 =>
    let (before, j) := modifiers fuel i
    (typeSpecifier fuel j).map fun (n, k) =>
      let (after, l) := modifiers fuel k
      (before ++ n :: after, l)

/-- A type.  A name after a size may belong to it, and a name before a bracket may be the
whole type or the beginning of a type written like a call. -/
def typeSpecifier (fuel : Nat) (i : Input) : List (Node × Input) :=
  match fuel with
  | 0 => []
  | fuel + 1 =>
    match i.rest with
    | [] => []
    | t :: _ =>
      let sized (j : Input) : Node × Input :=
        let k := j.skipWords (· = .size)
        (between "sized_type_specifier" i k [], k)
      if t.plays .size then
        let j := i.skipWords (· = .size)
        let k := j.skipWords (· = .qualifier)
        if k.atRole .primitive then [sized k.skip]
        else if k.atNameBut fun r => r.isSpecifier || r = .base then [sized j, sized k.skip]
        else [sized j]
      else if t.plays .compound then (compoundType fuel i).toList
      else if !t.isName || t.role.isModifier then []
      else if i.skip.atRole .size then [sized i.skip]
      else if t.role = .primitive then [(leaf "primitive_type" t, i.skip)]
      else
        let alone := (leaf "type_identifier" t, i.skip)
        if i.skip.atMark "(" then
          let after := i.skip.skipGroup
          let called := ((typeName fuel [")"] i.skip.skip).map fun (n, j) =>
            (between "macro_type_specifier" i j.skip [n], j.skip)).toList
          if after.atMark "*" || after.atNameBut fun r => r = .assembly || r = .attribute then called
          else if after.atMarks ["(", ";"] || after.atRole .attribute then alone :: called
          else [alone]
        else [alone]

/-- A type with members, with or without them. -/
def compoundType (fuel : Nat) (i : Input) : Option (Node × Input) :=
  match fuel with
  | 0 => none
  | fuel + 1 =>
    let isEnum := i.atWord "enum"
    let kind := if isEnum then "enum_specifier" else if i.atWord "union" then "union_specifier"
      else "struct_specifier"
    let (before, named) := modifiers fuel i.skip
    let (name, j) :=
      match named.rest with
      | t :: _ => if t.isName then ([leaf "type_identifier" t], named.skip) else ([], named)
      | [] => ([], named)
    let j := if isEnum && j.atMark ":" && j.skip.atRoles Role.isType then
        j.skip.skipWords Role.isType else j
    let head := before ++ name
    if j.atMark "\x7b" then
      if isEnum then
        let (inner, k) := enumerators fuel j.skip
        some (between kind i k (head ++ [between "enumerator_list" j k inner]), k)
      else
        let (fields, k) := members fuel j.skip
        some (between kind i k (head ++ [between "field_declaration_list" j k fields]), k)
    else if name.isEmpty then none
    else some (between kind i j head, j)

/-- The members of a type up to the closing brace, which is passed over. -/
def members (fuel : Nat) (i : Input) : List Node × Input :=
  match fuel with
  | 0 => ([], i)
  | fuel + 1 =>
    if i.rest.isEmpty then ([], i)
    else if i.atMark "\x7d" then ([], i.skip)
    else
      let (nodes, j) : List Node × Input :=
        match member fuel i with
        | some (n, j) => ([n], j)
        | none =>
          let (inner, j) := passOver fuel false i
          (inner, if j.atMark "\x7d" then j else j.skip)
      let (rest, k) := members fuel j
      (nodes ++ rest, k)

/-- One declaration of members, with its semicolon. -/
def member (fuel : Nat) (i : Input) : Option (Node × Input) :=
  match fuel with
  | 0 => none
  | fuel + 1 =>
    (specifiers fuel i).findSome? fun (specs, j) =>
      match fields fuel j with
      | some (names, k) =>
        let (_, l) := modifiers fuel k
        if l.atMark ";" then some (between "field_declaration" i l.skip (specs ++ names), l.skip)
        else none
      | none => none

/-- The declarators of members, each with its width.  A member may have a width and no
name. -/
def fields (fuel : Nat) (i : Input) : Option (List Node × Input) :=
  match fuel with
  | 0 => none
  | fuel + 1 =>
    if i.atMark ";" then some ([], i)
    else
      let named : Option (List Node × Input) :=
        if i.atMark ":" then some ([], i)
        else (declarator fuel (some "field_identifier") .inside Role.isBeforeDeclarator i).map
          fun (d, j) => ([inRole "declarator" d], j)
      match named with
      | none => none
      | some (nodes, j) =>
        let (width, k) := if j.atMark ":" then value fuel j.skip else ([], j)
        if k.atMark "," then
          (fields fuel k.skip).map fun (rest, l) => (nodes ++ width ++ rest, l)
        else some (nodes ++ width, k)

/-- The constants of an enumeration up to the closing brace, which is passed over. -/
def enumerators (fuel : Nat) (i : Input) : List Node × Input :=
  match fuel with
  | 0 => ([], i)
  | fuel + 1 =>
    if i.rest.isEmpty then ([], i)
    else if i.atMark "\x7d" then ([], i.skip)
    else if i.atMark "=" then
      let (nodes, j) := value fuel i.skip
      let (rest, k) := enumerators fuel j
      (nodes ++ rest, k)
    else enumerators fuel i.skip

-- ## Declarators

/-- A declarator.  `name` is the kind of node its name becomes, or says that it has no name;
words that are `reserved` are no names. -/
def declarator (fuel : Nat) (name : Option String) (standing : Standing)
    (reserved : Role → Bool) (i : Input) : Option (Node × Input) :=
  match fuel with
  | 0 => none
  | fuel + 1 =>
    match i.rest with
    | [] => none
    | t :: _ =>
      if t.plays .convention then declarator fuel name standing reserved i.skip
      else if t.plays .base then
        let j := i.skip.skipArguments
        if j.atMark "*" then declarator fuel name standing reserved j else none
      else if t.isMark "*" then
        let (_, j) := modifiers fuel (i.skip.skipWords fun r => r = .pointer || r = .qualifier)
        match declarator fuel name .inside Role.isAfterAsterisk j with
        | some (inner, k) =>
          let kind := declaratorKind "pointer_declarator" (some inner)
          some (between kind i k (innerDeclarator (some inner)), k)
        | none =>
          if name.isNone then some (between "abstract_pointer_declarator" i j [], j) else none
      else if t.isMark "(" then
        -- a declarator without a name can be just parameters
        let parametersAlone : Option (Node × Input) :=
          if name.isNone then declaratorSuffix fuel i name standing none i else none
        match parametersAlone with
        | some r => some r
        | none =>
          match declarator fuel name .inside Role.isInBrackets i.skip with
          | none => none
          | some (inner, j) =>
            if j.atMark ")" then
              let kind := declaratorKind "parenthesized_declarator" (some inner)
              declaratorSuffix fuel i name standing (some (between kind i j.skip [inner])) j.skip
            else none
      else if name.isNone then declaratorSuffix fuel i name standing none i
      else if t.isName && !reserved t.role then
        declaratorSuffix fuel i name standing (name.map fun kind => leaf kind t) i.skip
      else none

/-- What follows a declarator: parameters, array bounds, attributes. -/
def declaratorSuffix (fuel : Nat) (start : Input) (name : Option String) (standing : Standing)
    (inner : Option Node) (i : Input) : Option (Node × Input) :=
  match fuel with
  | 0 => none
  | fuel + 1 =>
    if i.atMark "(" then
      match parameters fuel i with
      | none => none
      | some (ps, j) =>
        let list := inRole "parameters" (between "parameter_list" i j ps)
        let (words, k) : List Node × Input :=
          if name = some "identifier" && standing ≠ .bare then
            remarks fuel (standing = .outermost && areNames ps) j
          else ([], j)
        let kind := declaratorKind "function_declarator" inner
        let whole := between kind start k (innerDeclarator inner ++ list :: words)
        declaratorSuffix fuel start name standing (some whole) k
    else if i.atAttributeList then
      let kind := declaratorKind "attributed_declarator" inner
      let whole := between kind start i.skipGroup inner.toList
      declaratorSuffix fuel start name standing (some whole) i.skipGroup
    else if i.atMark "[" then
      match bound fuel i.skip with
      | none => none
      | some (inside, j) =>
        let kind := declaratorKind "array_declarator" inner
        let whole := between kind start j (innerDeclarator inner ++ inside)
        declaratorSuffix fuel start name standing (some whole) j
    else if inner.isSome && (i.atRole .attribute || i.atRole .assembly) then
      declaratorSuffix fuel start name standing inner i.skip.skipArguments
    else inner.map fun n => (n, i)

/-- Attributes and words after the parameters of a function.  Where declarations of the
parameters could follow, a word that begins a declaration is no remark. -/
def remarks (fuel : Nat) (declarationsMayFollow : Bool) (i : Input) : List Node × Input :=
  match fuel with
  | 0 => ([], i)
  | fuel + 1 =>
    match i.rest with
    | [] => ([], i)
    | t :: _ =>
      if t.plays .attribute || t.plays .assembly then
        let (inner, j) := aside fuel i.skip
        let (rest, k) := remarks fuel declarationsMayFollow j
        (between "attribute_specifier" i j inner :: rest, k)
      else if t.isName && !(declarationsMayFollow && t.role.isSpecifier) then
        let (rest, k) := remarks fuel declarationsMayFollow i.skip.skipArguments
        (leaf "identifier" t :: rest, k)
      else ([], i)

/-- The bound of an array up to the closing bracket, which is passed over. -/
def bound (fuel : Nat) (i : Input) : Option (List Node × Input) :=
  match fuel with
  | 0 => none
  | fuel + 1 =>
    let j := i.skipWords fun r => r = .qualifier || r = .storage
    if j.atMark "]" then some ([], j.skip)
    else if j.atMark "*" && j.skip.atMark "]" then some ([], j.skip.skip)
    else
      match expression fuel j with
      | some e => if e.rest.atMark "]" then some (e.nodes, e.rest.skip) else none
      | none => none

/-- Parameters in brackets; a block can stand for them. -/
def parameters (fuel : Nat) (i : Input) : Option (List Node × Input) :=
  match fuel with
  | 0 => none
  | fuel + 1 =>
    let j := i.skip
    if j.atMark ")" then some ([], j.skip)
    else if j.atMark "\x7b" then
      let (b, k) := block fuel j
      if k.atMark ")" then some ([b], k.skip) else none
    else parameterList fuel j

/-- One parameter or more, up to the closing bracket, which is passed over. -/
def parameterList (fuel : Nat) (i : Input) : Option (List Node × Input) :=
  match fuel with
  | 0 => none
  | fuel + 1 =>
    let first : Option (Node × Input) :=
      match i.rest with
      | [] => none
      | t :: _ =>
        if t.isMark "..." then some (leaf "variadic_parameter" t, i.skip) else parameter fuel i
    match first with
    | none => none
    | some (n, j) =>
      if j.atMark ")" then some ([n], j.skip)
      else if j.atMark "," then (parameterList fuel j.skip).map fun (rest, k) => (n :: rest, k)
      else none

/-- One parameter.  What can be read without a name has none. -/
def parameter (fuel : Nat) (i : Input) : Option (Node × Input) :=
  match fuel with
  | 0 => none
  | fuel + 1 =>
    (specifiers fuel i).findSome? fun (specs, j) =>
      let whole (nodes : List Node) (k : Input) : Option (Node × Input) :=
        let (after, l) := modifiers fuel k
        if l.atMarks [",", ")"] then
          some (between "parameter_declaration" i l (specs ++ nodes ++ after), l)
        else none
      let declared (name : Option String) : Option (Node × Input) :=
        match declarator fuel name .inside Role.isBeforeDeclarator j with
        | some (d, k) => whole [inRole "declarator" d] k
        | none => none
      (whole [] j).or ((declared none).or (declared (some "identifier")))

/-- The name of a type, up to one of some marks. -/
def typeName (fuel : Nat) (stops : List String) (i : Input) : Option (Node × Input) :=
  match fuel with
  | 0 => none
  | fuel + 1 =>
    (specifiers fuel i).findSome? fun (specs, j) =>
      if j.atMarks stops then some (between "type_descriptor" i j specs, j)
      else
        match declarator fuel none .inside Role.isBeforeDeclarator j with
        | some (d, k) =>
          if k.atMarks stops then
            some (between "type_descriptor" i k (specs ++ [inRole "declarator" d]), k)
          else none
        | none => none

-- ## Declarations

/-- An initial value, a width, or the value of a constant. -/
def value (fuel : Nat) (i : Input) : List Node × Input :=
  match fuel with
  | 0 => ([], i)
  | fuel + 1 =>
    if i.atMark "\x7b" then initializers fuel i.skip
    else
      match expression fuel i with
      | some e =>
        if e.rest.atMarks [",", ";", ")", "\x7d"] then (e.nodes, e.rest) else passOver fuel true i
      | none => passOver fuel true i

/-- Initial values up to the closing brace, which is passed over, with what they are for. -/
def initializers (fuel : Nat) (i : Input) : List Node × Input :=
  match fuel with
  | 0 => ([], i)
  | fuel + 1 =>
    match i.rest with
    | [] => ([], i)
    | t :: _ =>
      if t.isMark "\x7d" then ([], i.skip)
      else
        let (nodes, j) : List Node × Input :=
          if t.isOneOf [",", "="] then ([], i.skip)
          else if t.isMark "." || t.isName && i.skip.atMark ":" then ([], i.skip.skip)
          else if t.isMark "[" then group fuel "]" i.skip
          else if t.closes || t.isMark ";" then ([], i.skip)
          else value fuel i
        let (rest, k) := initializers fuel j
        (nodes ++ rest, k)

/-- What follows the first declarator of a declaration: its initial value, and after a comma
further declarators. -/
def moreDeclarators (fuel : Nat) (i : Input) : Option (List Node × Input) :=
  match fuel with
  | 0 => none
  | fuel + 1 =>
    if i.atMark "=" then
      let (values, j) := value fuel i.skip
      (moreDeclarators fuel j).map fun (rest, k) => (values ++ rest, k)
    else if i.atMark "," then
      match declarator fuel (some "identifier") .outermost Role.isBeforeDeclarator i.skip with
      | none => none
      | some (d, j) =>
        if hasRemarks d && !j.atMark "=" then none
        else (moreDeclarators fuel j).map fun (rest, k) => (inRole "declarator" d :: rest, k)
    else some ([], i)

/-- A declaration or a function definition.  Without a declarator it is neither, and becomes
a node of another kind.  The semicolon may be missing at the end of a block or of the
file. -/
def declaration (fuel : Nat) (i : Input) : Option (Node × Input) :=
  match fuel with
  | 0 => none
  | fuel + 1 =>
    (specifiers fuel i).findSome? fun (specs, j) =>
      if j.atMark ";" then some (between "type_declaration" i j.skip specs, j.skip)
      else
        match declarator fuel (some "identifier") .outermost Role.isBeforeDeclarator j with
        | none => none
        | some (d, k) =>
          let head := specs ++ [inRole "declarator" d]
          let definition : Option (Node × Input) :=
            if k.atMark "\x7b" then
              let (body, l) := block fuel k
              some (between "function_definition" i l (head ++ [inRole "body" body]), l)
            else none
          let declared : Option (Node × Input) :=
            if hasRemarks d && !k.atMark "=" then none
            else
              match moreDeclarators fuel k with
              | none => none
              | some (more, l) =>
                if l.atMark ";" then some (between "declaration" i l.skip (head ++ more), l.skip)
                else if l.atEnd then
                  some (between "declaration" i l (head ++ more ++ missing l), l)
                else none
          definition.or (declared.or (oldDefinition fuel i specs j))

/-- A function definition with declarations of the parameters between the brackets and the
body. -/
def oldDefinition (fuel : Nat) (start : Input) (specs : List Node) (i : Input) :
    Option (Node × Input) :=
  match fuel with
  | 0 => none
  | fuel + 1 =>
    match declarator fuel (some "identifier") .bare Role.isBeforeDeclarator i with
    | none => none
    | some (d, j) =>
      if !takesDeclarations d then none
      else
        let (olds, k) := parameterDeclarations fuel j
        if k.atMark "\x7b" then
          let (body, l) := block fuel k
          let head := specs ++ inRole "declarator" d :: olds
          some (between "function_definition" start l (head ++ [inRole "body" body]), l)
        else none

/-- Declarations of parameters between the brackets and the body of a function. -/
def parameterDeclarations (fuel : Nat) (i : Input) : List Node × Input :=
  match fuel with
  | 0 => ([], i)
  | fuel + 1 =>
    if i.atMark "\x7b" then ([], i)
    else
      match declaration fuel i with
      | some (d, j) =>
        if d.kind = "declaration" then
          let (rest, k) := parameterDeclarations fuel j
          (d :: rest, k)
        else ([], i)
      | none => ([], i)

/-- A definition of type names, with its semicolon. -/
def typeDefinition (fuel : Nat) (i : Input) : Node × Input :=
  match fuel with
  | 0 => (between "type_definition" i i.skip [], i.skip)
  | fuel + 1 =>
    let read := (specifiers fuel i.skip).findSome? fun (specs, j) =>
      match typeDeclarators fuel j with
      | some (names, k) => if k.atMark ";" then some (specs ++ names, k.skip) else none
      | none => none
    match read with
    | some (nodes, j) => (between "type_definition" i j nodes, j)
    | none =>
      let (nodes, j) := passOver fuel false i.skip
      (between "type_definition" i (j.skipMark ";") nodes, j.skipMark ";")

/-- The declarators of a definition of type names. -/
def typeDeclarators (fuel : Nat) (i : Input) : Option (List Node × Input) :=
  match fuel with
  | 0 => none
  | fuel + 1 =>
    match declarator fuel (some "type_identifier") .inside Role.isModifier i with
    | none => none
    | some (d, j) =>
      if j.atMark "," then
        (typeDeclarators fuel j.skip).map fun (rest, k) => (inRole "declarator" d :: rest, k)
      else some ([inRole "declarator" d], j)

-- ## Statements

/-- A block in braces. -/
def block (fuel : Nat) (i : Input) : Node × Input :=
  match fuel with
  | 0 => (between "compound_statement" i i [], i)
  | fuel + 1 =>
    let (inner, j) := items fuel false i.skip
    let k := j.skipMark "\x7d"
    (between "compound_statement" i k inner, k)

/-- Items one after the other.  In a block they end before the closing brace; outside of all
blocks such a brace is in error. -/
def items (fuel : Nat) (outermost : Bool) (i : Input) : List Node × Input :=
  match fuel with
  | 0 => ([], i)
  | fuel + 1 =>
    match i.rest with
    | [] => ([], i)
    | t :: _ =>
      if t.isMark "\x7d" then
        if outermost then
          let (rest, j) := items fuel outermost i.skip
          (errorAt t.start t.stop :: rest, j)
        else ([], i)
      else
        let (nodes, j) := item fuel outermost i
        let (rest, k) := items fuel outermost j
        (nodes ++ rest, k)

/-- A declaration, a definition or a statement. -/
def item (fuel : Nat) (outermost : Bool) (i : Input) : List Node × Input :=
  match fuel with
  | 0 => ([], i.skip)
  | fuel + 1 =>
    match i.rest with
    | [] => ([], i)
    | t :: _ =>
      if t.isWord "extern" && i.skip.at? (·.cls = .literal) then
        let (inner, j) := item fuel outermost i.skip.skip
        ([between "linkage_specification" i j inner], j)
      else if t.plays .typeDefinition then
        let (d, j) := typeDefinition fuel i
        ([d], j)
      else if t.isWord "__extension__" && i.skip.atRole .typeDefinition then
        let (d, j) := typeDefinition fuel i.skip
        ([d], j)
      else
        let j := i.skipAttributeLists fuel
        if j.atEnd then ([errorAt t.start j.last], j)
        else if beginsStatement j then statement fuel j
        else declarationOrExpression fuel (outermost && !t.conditional) i

/-- A declaration, or an expression with its semicolon.  A text that can be both is a
declaration, unless brackets around a declarator speak against it. -/
def declarationOrExpression (fuel : Nat) (outermost : Bool) (i : Input) : List Node × Input :=
  match fuel with
  | 0 => ([], i.skip)
  | fuel + 1 =>
    let declared := if mayDeclare i then declaration fuel i else none
    match declared with
    | some (d, j) =>
      if onlyDeclares i || d.kind = "function_definition" || 0 ≤ declaredWeight d then ([d], j)
      else
        match expressionStatement fuel outermost i with
        | some (e, k) => ([e], k)
        | none => ([d], j)
    | none =>
      let read := if onlyDeclares i then none else expressionStatement fuel outermost i
      match read with
      | some (e, k) => ([e], k)
      | none => unreadable fuel i

/-- An expression and the semicolon after it, which may be missing before a closing brace.
Outside of all blocks it is no pair of operands with an operator between them. -/
def expressionStatement (fuel : Nat) (outermost : Bool) (i : Input) : Option (Node × Input) :=
  match fuel with
  | 0 => none
  | fuel + 1 =>
    let read : Option (List Node × Input) :=
      if outermost then
        match expression fuel i with
        | some e => if e.binary then none else some (e.nodes, e.rest)
        | none => none
      else expressions fuel i
    match read with
    | none => none
    | some (nodes, j) =>
      if j.atMark ";" then some (between "expression_statement" i j.skip nodes, j.skip)
      else if j.atMark "\x7d" then
        some (between "expression_statement" i j (nodes ++ missing j), j)
      else none

/-- What cannot be read: stray characters, or anything up to a semicolon.  It is in error,
unless it can still be taken for an expression. -/
def unreadable (fuel : Nat) (i : Input) : List Node × Input :=
  match fuel, i.rest with
  | 0, _ => ([], i.skip)
  | _, [] => ([], i)
  | fuel + 1, t :: _ =>
    if t.isMark "@" then
      let j := strays fuel i
      ([errorAt t.start j.last], j)
    else
      let (inner, j) := passOver fuel false i
      if j.atMark ";" then
        if onlyDeclares i then ([errorAt t.start j.skip.last], j.skip)
        else ([between "expression_statement" i j.skip inner], j.skip)
      else
        let k := if j.rest.length < i.rest.length then j else i.skip
        ([errorAt t.start k.last], k)

/-- A run of stray characters. -/
def strays (fuel : Nat) (i : Input) : Input :=
  match fuel with
  | 0 => i
  | fuel + 1 => if i.atMark "@" then strays fuel i.skip else i

/-- A statement that is no expression. -/
def statement (fuel : Nat) (i : Input) : List Node × Input :=
  match fuel with
  | 0 => ([], i.skip)
  | fuel + 1 =>
    if i.atMark ";" then ([], i.skip)
    else if i.atMark "\x7b" then
      let (b, j) := block fuel i
      ([b], j)
    else if i.atWord "if" || i.atWord "while" || i.atWord "switch" then
      let (head, j) := bracketed fuel i.skip
      let (inner, k) := body fuel j
      if i.atWord "if" && k.atWord "else" then
        let (other, l) := body fuel k.skip
        ([between "if_statement" i l (head ++ inner ++ other)], l)
      else ([between "statement" i k (head ++ inner)], k)
    else if i.atWord "for" then
      let (first, j) := loopPart fuel true i.skip.skip
      let (second, k) := loopPart fuel false j
      let (third, l) := group fuel ")" k
      let (inner, m) := body fuel l
      ([between "for_statement" i m (first ++ second ++ third ++ inner)], m)
    else if i.atWord "do" then
      let (inner, j) := body fuel i.skip
      let (head, k) := bracketed fuel j.skip
      ([between "do_statement" i (k.skipMark ";") (inner ++ head)], k.skipMark ";")
    else if i.atWord "case" then caseLabel fuel i.skip
    else if i.atWord "default" then ([], i.skip.skipMark ":")
    else if i.atWord "__try" then
      let (first, j) := body fuel i.skip
      let (head, k) := if j.atWord "__except" then bracketed fuel j.skip else ([], j.skip)
      let (second, l) := body fuel k
      ([between "seh_try_statement" i l (first ++ head ++ second)], l)
    else if i.skip.atMark ":" then
      -- a label; a declaration may follow it
      let j := i.skip.skip
      if j.atEnd then ([], j) else item fuel false j
    else
      -- a word and perhaps an expression
      let j := i.skip
      if j.atMark ";" then ([], j.skip)
      else
        match expressionStatement fuel false j with
        | some (e, k) => ([between "statement" i k [e]], k)
        | none => unreadable fuel j

/-- The statement that another one governs; it is no declaration. -/
def body (fuel : Nat) (i : Input) : List Node × Input :=
  match fuel with
  | 0 => ([], i)
  | fuel + 1 =>
    let j := i.skipAttributeLists fuel
    if j.atEnd then ([], j)
    else if beginsStatement j then statement fuel j
    else
      match expressionStatement fuel false j with
      | some (e, k) => ([e], k)
      | none => unreadable fuel j

/-- A part of the head of a `for` loop with its semicolon; the first one may be a
declaration. -/
def loopPart (fuel : Nat) (first : Bool) (i : Input) : List Node × Input :=
  match fuel with
  | 0 => ([], i.skip)
  | fuel + 1 =>
    if i.atMark ";" then ([], i.skip)
    else if first then declarationOrExpression fuel false i
    else
      match expressions fuel i with
      | some (nodes, j) =>
        if j.atMark ";" then (nodes, j.skip)
        else
          let (nodes, j) := passOver fuel false i
          (nodes, j.skipMark ";")
      | none =>
        let (nodes, j) := passOver fuel false i
        (nodes, j.skipMark ";")

/-- The value of a `case`, up to its colon. -/
def caseLabel (fuel : Nat) (i : Input) : List Node × Input :=
  match fuel with
  | 0 => ([], i)
  | fuel + 1 =>
    match expression fuel i with
    | some e =>
      if e.rest.atMark ":" then (e.nodes, e.rest.skip)
      else if e.rest.atMark "..." then
        let (rest, j) := caseLabel fuel e.rest.skip
        (e.nodes ++ rest, j)
      else (e.nodes, e.rest)
    | none => ([], i)

/-- Something in round brackets. -/
def bracketed (fuel : Nat) (i : Input) : List Node × Input :=
  match fuel with
  | 0 => ([], i)
  | fuel + 1 =>
    if i.atMark "(" then
      if i.skip.atMark "\x7b" then
        let (b, j) := block fuel i.skip
        ([b], j.skipMark ")")
      else group fuel ")" i.skip
    else ([], i)

/-- Expressions up to a closing bracket, which is passed over. -/
def group (fuel : Nat) (close : String) (i : Input) : List Node × Input :=
  match fuel with
  | 0 => ([], i)
  | fuel + 1 =>
    if i.atMark close then ([], i.skip)
    else
      match expressions fuel i with
      | some (nodes, j) => if j.atMark close then (nodes, j.skip) else passClose fuel close i
      | none => passClose fuel close i

/-- Anything up to a closing bracket or a semicolon, or a comma where `single`.  Of what is
inside, blocks are kept. -/
def passOver (fuel : Nat) (single : Bool) (i : Input) : List Node × Input :=
  match fuel with
  | 0 => ([], i)
  | fuel + 1 =>
    match i.rest with
    | [] => ([], i)
    | t :: _ =>
      if t.closes || t.isMark ";" || single && t.isMark "," then ([], i)
      else
        let (nodes, j) : List Node × Input :=
          if t.isMark "(" && i.skip.atMark "\x7b" then
            let (b, j) := block fuel i.skip
            let (rest, k) := passClose fuel ")" j
            (b :: rest, k)
          else if t.isMark "(" then group fuel ")" i.skip
          else if t.isMark "[" then group fuel "]" i.skip
          else if t.isMark "\x7b" then passClose fuel "\x7d" i.skip
          else ([], i.skip)
        let (rest, k) := passOver fuel single j
        (nodes ++ rest, k)

/-- Anything up to a closing bracket, which is passed over. -/
def passClose (fuel : Nat) (close : String) (i : Input) : List Node × Input :=
  match fuel with
  | 0 => ([], i)
  | fuel + 1 =>
    let (inner, j) := passOver fuel false i
    if j.rest.isEmpty then (inner, j)
    else if j.atMark close then (inner, j.skip)
    else if j.atMark "\x7d" then (inner, j)
    else
      let (rest, k) := passClose fuel close j.skip
      (inner ++ rest, k)

-- ## Expressions

/-- Expressions with commas between them. -/
def expressions (fuel : Nat) (i : Input) : Option (List Node × Input) :=
  match fuel with
  | 0 => none
  | fuel + 1 =>
    match expression fuel i with
    | none => none
    | some e =>
      if e.rest.atMark "," then
        (expressions fuel e.rest.skip).map fun (rest, j) => (e.nodes ++ rest, j)
      else some (e.nodes, e.rest)

/-- An expression without a comma. -/
def expression (fuel : Nat) (i : Input) : Option Expression :=
  match fuel with
  | 0 => none
  | fuel + 1 =>
    match operand fuel i with
    | none => none
    | some o =>
      (operations fuel o.assignable o.rest).map fun (nodes, chosen, j) =>
        ⟨o.nodes ++ nodes, o.rest.atMarks binaryMarks && !chosen, j⟩

/-- The operators and operands that follow an operand, and whether a choice between two
values is among them. -/
def operations (fuel : Nat) (assignable : Bool) (i : Input) : Option (List Node × Bool × Input) :=
  match fuel with
  | 0 => none
  | fuel + 1 =>
    if i.atMark "?" then
      let first := if i.skip.atMark ":" then some ([], i.skip) else expressions fuel i.skip
      match first with
      | none => none
      | some (nodes, j) =>
        if j.atMark ":" then
          (expression fuel j.skip).map fun e => (nodes ++ e.nodes, true, e.rest)
        else none
    else if i.atMarks binaryMarks || assignable && i.atMarks assignmentMarks then
      match operand fuel i.skip with
      | none => none
      | some o =>
        (operations fuel o.assignable o.rest).map fun (nodes, chosen, j) =>
          (o.nodes ++ nodes, chosen, j)
    else some ([], false, i)

/-- An operand with the operators before and after it. -/
def operand (fuel : Nat) (i : Input) : Option Operand :=
  match fuel with
  | 0 => none
  | fuel + 1 =>
    match i.rest with
    | [] => none
    | t :: _ =>
      if t.isMark "(" then bracket fuel i
      else if t.isOneOf leadingMarks then
        (operand fuel i.skip).map fun o => { o with assignable := o.assignable || t.isMark "*" }
      else if t.cls = .mark then none
      else if t.cls = .number then suffixes fuel [] false i.skip
      else if t.cls = .literal then suffixes fuel [] false (literals fuel i.skip)
      else if t.isWord "__extension__" then operand fuel i.skip
      else if t.plays .assembly then assembly fuel i.skip
      else if t.plays .constant then suffixes fuel [] false i.skip
      else if t.isWord "sizeof" then sizeOperand fuel i.skip
      else if t.isWord "_Generic" && i.skip.atMark "(" then generic fuel i.skip.skip
      else if t.plays .operator && i.skip.atMark "(" then typeOperand fuel i.skip.skip
      else suffixes fuel [] true (if i.skip.at? (·.cls = .literal) then literals fuel i.skip else i.skip)

/-- Without the string literals that are next, and the words between them. -/
def literals (fuel : Nat) (i : Input) : Input :=
  match fuel with
  | 0 => i
  | fuel + 1 => if i.at? fun t => t.cls = .literal || t.isName then literals fuel i.skip else i

/-- What follows an operand: arguments, an index, a member, or an operator. -/
def suffixes (fuel : Nat) (nodes : List Node) (assignable : Bool) (i : Input) : Option Operand :=
  match fuel with
  | 0 => none
  | fuel + 1 =>
    if i.atMark "(" then
      match arguments fuel i.skip with
      | none => none
      | some (more, j) => suffixes fuel (nodes ++ more) true j
    else if i.atMark "[" then
      match expression fuel i.skip with
      | none => none
      | some e => if e.rest.atMark "]" then suffixes fuel (nodes ++ e.nodes) true e.rest.skip else none
    else if i.atMarks [".", "->"] then
      if i.skip.at? (·.isName) then suffixes fuel nodes true i.skip.skip else none
    else if i.atMarks ["++", "--"] then suffixes fuel nodes false i.skip
    else some ⟨nodes, assignable, i⟩

/-- Arguments up to the closing bracket, which is passed over; a block can be one. -/
def arguments (fuel : Nat) (i : Input) : Option (List Node × Input) :=
  match fuel with
  | 0 => none
  | fuel + 1 =>
    if i.atMark ")" then some ([], i.skip)
    else
      let first : Option (List Node × Input) :=
        if i.atMark "\x7b" then
          let (b, j) := block fuel i
          some ([b], j)
        else (expression fuel i).map fun e => (e.nodes, e.rest)
      match first with
      | none => none
      | some (nodes, j) =>
        if j.atMark ")" then some (nodes, j.skip)
        else if j.atMark "," && !j.skip.atMark ")" then
          (arguments fuel j.skip).map fun (rest, k) => (nodes ++ rest, k)
        else none

/-- Brackets where an operand begins: a block, a value, or the name of a type before an
operand or before initial values. -/
def bracket (fuel : Nat) (i : Input) : Option Operand :=
  match fuel with
  | 0 => none
  | fuel + 1 =>
    let j := i.skip
    if j.atMark "\x7b" then
      let (b, k) := block fuel j
      if k.atMark ")" then suffixes fuel [b] true k.skip else none
    else
      let asValue : Option (List Node × Input) :=
        if j.atRoles Role.beginsTypeName then none
        else
          match expressions fuel j with
          | some (nodes, k) => if k.atMark ")" then some (nodes, k.skip) else none
          | none => none
      let asType : Option (Node × Input) :=
        if j.atRoles Role.beginsOperand then none
        else (typeName fuel [")"] j).map fun (n, k) => (n, k.skip)
      match asType, asValue with
      | none, none => none
      | none, some (nodes, k) => suffixes fuel nodes true k
      | some (n, k), none => cast fuel n k
      | some (n, k), some (nodes, _) =>
        if beforeOperand fuel k || k.atMarks sharedMarks && weight nodes < weight [n] then
          cast fuel n k
        else suffixes fuel nodes true k

/-- What follows the name of a type in brackets: initial values or an operand. -/
def cast (fuel : Nat) (n : Node) (i : Input) : Option Operand :=
  match fuel with
  | 0 => none
  | fuel + 1 =>
    if i.atMark "\x7b" then
      let (nodes, j) := initializers fuel i.skip
      suffixes fuel (n :: nodes) false j
    else (operand fuel i).map fun o => { o with nodes := n :: o.nodes }

/-- What a size is asked of: the name of a type in brackets or an operand. -/
def sizeOperand (fuel : Nat) (i : Input) : Option Operand :=
  match fuel with
  | 0 => none
  | fuel + 1 =>
    let asType : Option (Node × Input) :=
      if i.atMark "(" && !i.skip.atRoles Role.beginsOperand then
        (typeName fuel [")"] i.skip).map fun (n, j) => (n, j.skip)
      else none
    match asType with
    | none => operand fuel i
    | some (n, j) =>
      if j.atMark "\x7b" then cast fuel n j
      else
        match bracket fuel i with
        | some o => if weight [n] ≤ weight o.nodes then some o else some ⟨[n], false, j⟩
        | none => some ⟨[n], false, j⟩

/-- The name of a type up to the closing bracket, which is passed over; a member may be
named after it. -/
def typeOperand (fuel : Nat) (i : Input) : Option Operand :=
  match fuel with
  | 0 => none
  | fuel + 1 =>
    match typeName fuel [")", ","] i with
    | none => none
    | some (n, j) =>
      let (_, k) := passClose fuel ")" j
      suffixes fuel [n] false k

/-- A choice by type: a value, and after each name of a type another one, up to the closing
bracket, which is passed over. -/
def generic (fuel : Nat) (i : Input) : Option Operand :=
  match fuel with
  | 0 => none
  | fuel + 1 =>
    match expression fuel i with
    | none => none
    | some e =>
      match choices fuel e.rest with
      | none => none
      | some (nodes, j) => suffixes fuel (e.nodes ++ nodes) true j

/-- The names of types and the values after them. -/
def choices (fuel : Nat) (i : Input) : Option (List Node × Input) :=
  match fuel with
  | 0 => none
  | fuel + 1 =>
    if i.atMark ")" then some ([], i.skip)
    else if !i.atMark "," then none
    else
      match typeName fuel [":"] i.skip with
      | none => none
      | some (n, j) =>
        match expression fuel j.skip with
        | none => none
        | some e => (choices fuel e.rest).map fun (rest, k) => (n :: e.nodes ++ rest, k)

/-- Assembly in brackets. -/
def assembly (fuel : Nat) (i : Input) : Option Operand :=
  match fuel with
  | 0 => none
  | fuel + 1 =>
    let j := i.skipWords fun _ => true
    if j.atMark "(" then
      let (nodes, k) := passClose fuel ")" j.skip
      some ⟨nodes, false, k⟩
    else none

end

/-- The syntax tree of a C file. -/
def parse (text : Bytes) : Node :=
  let ts := tokens text
  let (nodes, _) := items (16 * ts.length + 64) true ⟨ts, 0⟩
  nodeAt "translation_unit" ⟨0, 0, 0⟩ text.length nodes

end PrototypeOrder.C
