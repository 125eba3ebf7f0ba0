/-
# Reading along the tokens

The tokens still to be read, with what can be asked of the next ones and the ways to pass
over them.
-/
import PrototypeOrder.C.Token

namespace PrototypeOrder.C

/-- The tokens still to be read, and where the last one read ends. -/
structure Input where
  rest : List Token
  last : Nat
deriving Repr

namespace Input

/-- The next token. -/
def next? (i : Input) : Option Token := i.rest.head?

/-- Without the next token. -/
def skip (i : Input) : Input :=
  match i.rest with
  | [] => i
  | t :: rest => ⟨rest, t.stop⟩

/-- Whether something holds of the next token. -/
def at? (i : Input) (p : Token → Bool) : Bool := i.next?.any p

/-- Whether the next token is a given mark. -/
def atMark (i : Input) (mark : String) : Bool := i.at? (·.isMark mark)

/-- Whether the next token is one of some marks. -/
def atMarks (i : Input) (marks : List String) : Bool := i.at? (·.isOneOf marks)

/-- Whether the next token is a given word. -/
def atWord (i : Input) (word : String) : Bool := i.at? (·.isWord word)

/-- Whether the next token is a word of a given part. -/
def atRole (i : Input) (role : Role) : Bool := i.at? (·.plays role)

/-- Whether the next token is a word whose part is among some. -/
def atRoles (i : Input) (roles : Role → Bool) : Bool := i.at? fun t => t.isName && roles t.role

/-- Whether the next token is a word whose part is not among some. -/
def atNameBut (i : Input) (roles : Role → Bool) : Bool := i.at? fun t => t.isName && !roles t.role

/-- Whether the text or the block ends here. -/
def atEnd (i : Input) : Bool := i.rest.isEmpty || i.atMark "\x7d"

/-- Whether two opening square brackets are next, as before an attribute. -/
def atAttributeList (i : Input) : Bool := i.atMark "[" && i.skip.atMark "["

/-- Without the next token, if it is a given mark. -/
def skipMark (i : Input) (mark : String) : Input := if i.atMark mark then i.skip else i

/-- Without the next tokens as long as they are words of some parts. -/
def skipRoles (roles : Role → Bool) (last : Nat) : List Token → Input
  | [] => ⟨[], last⟩
  | t :: rest => if t.isName && roles t.role then skipRoles roles t.stop rest else ⟨t :: rest, last⟩

/-- Without the words of some parts that are next. -/
def skipWords (i : Input) (roles : Role → Bool) : Input := skipRoles roles i.last i.rest

/-- After the bracket that closes `depth + 1` open ones, or at the end. -/
def closeFrom (last depth : Nat) : List Token → Input
  | [] => ⟨[], last⟩
  | t :: rest =>
    if t.opens then closeFrom t.stop (depth + 1) rest
    else if t.closes then
      match depth with
      | 0 => ⟨rest, t.stop⟩
      | depth + 1 => closeFrom t.stop depth rest
    else closeFrom t.stop depth rest

/-- Without the brackets that the next token opens and what is inside. -/
def skipGroup (i : Input) : Input := closeFrom i.skip.last 0 i.skip.rest

/-- Without a group in round brackets, if one is next. -/
def skipArguments (i : Input) : Input := if i.atMark "(" then i.skipGroup else i

/-- Without the attributes in double square brackets that are next; `fuel` bounds their
number. -/
def skipAttributeLists (fuel : Nat) (i : Input) : Input :=
  match fuel with
  | 0 => i
  | fuel + 1 => if i.atAttributeList then skipAttributeLists fuel i.skipGroup else i

/-- Without the groups in round brackets that are next; `fuel` bounds their number. -/
def skipGroups (fuel : Nat) (i : Input) : Input :=
  match fuel with
  | 0 => i
  | fuel + 1 => if i.atMark "(" then skipGroups fuel i.skipGroup else i

end Input

end PrototypeOrder.C
