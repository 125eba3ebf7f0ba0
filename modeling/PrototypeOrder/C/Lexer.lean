/-
# Cutting C text into tokens

The text is read byte by byte.  Blanks and comments are left out, and so are preprocessor
directives with what belongs to them, so that all branches of a conditional directive are
read one after the other.  What belongs to a directive depends on its name: a definition
takes its argument up to the end of the line, a condition ends with the line on which it is
complete, `#ifdef` takes one word, and after `#else` and `#endif` the text goes on at once.

A decision may cover some of the bytes that follow: `ahead` counts those that have still to
be passed over.
-/
import PrototypeOrder.C.Token

namespace PrototypeOrder.C

/-! ## Directives -/

/-- What is being read of a directive. -/
inductive Directive where
  /-- its name; `taken` holds the bytes of it, the last one first -/
  | name (taken : Bytes)
  /-- the word it is about, `begun` or not; a definition goes on after the word -/
  | subject (defines begun : Bool)
  /-- the parameters of a definition -/
  | parameters
  /-- the name of a file, inside the marks that end with `close`, or what is around them -/
  | path (close : Option UInt8)
  /-- a condition, inside `depth` brackets; `complete` where an operator or the end can follow -/
  | condition (depth : Nat) (complete : Bool)
  /-- a character inside a condition -/
  | character (depth : Nat)
  /-- any other argument, `begun` or not -/
  | argument (begun : Bool)
deriving Repr

/-- The directives that open a range of the text. -/
def openingDirectives : List String := ["if", "ifdef", "ifndef"]

/-- The directives inside such a range and at its end. -/
def innerDirectives : List String := ["elif", "elifdef", "elifndef", "else", "endif"]

/-- What follows the name of a directive; nothing if the text goes on at once.  Outside of the
range they belong to, inner directives are like unknown ones. -/
def Directive.afterName (name : String) (inRange : Bool) : Option Directive :=
  if innerDirectives.contains name && !inRange then some (.argument false)
  else if name = "define" then some (.subject true false)
  else if name = "include" then some (.path none)
  else if name = "if" || name = "elif" then some (.condition 0 false)
  else if name = "ifdef" || name = "ifndef" || name = "elifdef" || name = "elifndef" then
    some (.subject false false)
  else if name = "else" || name = "endif" then none
  else some (.argument false)

/-- Whether a number sign begins a directive: a name follows it. -/
def startsDirective (rest : Bytes) : Bool :=
  (rest.dropWhile fun b => b = 32 || b = 9).head?.any fun b => inWord b && b < 128

/-! ## The state of reading -/

/-- What is being read. -/
inductive Reading where
  /-- blanks -/
  | between
  /-- a word, a number or a mark; `taken` holds its bytes, the last one first -/
  | lexeme (cls : TokenClass) (start : Place) (taken : Bytes)
  /-- a literal -/
  | literal (quote : UInt8) (start : Place) (taken : Bytes)
  /-- a comment, between marks or up to the end of the line; in a directive, what of it -/
  | comment (block : Bool) (inside : Option Directive)
  /-- a directive -/
  | directive (d : Directive)
deriving Repr

/-- What is being read, with one more byte that goes on with it. -/
def Reading.absorb (r : Reading) (b : UInt8) : Reading :=
  match r with
  | .lexeme cls start taken => .lexeme cls start (b :: taken)
  | .literal quote start taken => .literal quote start (b :: taken)
  | r => r

/-- What is read after a comment. -/
def Reading.resume (inside : Option Directive) : Reading :=
  match inside with
  | none => .between
  | some d => .directive d

/-- Where reading stands. -/
structure State where
  reading : Reading
  /-- the number of bytes that are decided on already -/
  ahead : Nat
  /-- the number of open braces -/
  depth : Nat
  /-- for each open range of a conditional directive, the innermost first, how many braces
  were open before it -/
  ranges : List Nat
deriving Repr

namespace State

/-- The state before the first byte. -/
def initial : State := ⟨.between, 0, 0, []⟩

/-- Going on with a reading that covers `length` bytes, the present one included. -/
def take (s : State) (r : Reading) (length : Nat) : State :=
  { s with reading := r, ahead := length - 1 }

/-- The token of the bytes taken so far. -/
def token (s : State) (cls : TokenClass) (start : Place) (taken : Bytes) (stop : Nat) : Token :=
  let text := Utf8.text taken.reverse
  ⟨cls, text, start, stop, if cls = .word then Role.ofWord text else .name, !s.ranges.isEmpty⟩

/-- The braces after a mark.  A closing brace also closes the ranges opened inside. -/
def countBrace (s : State) (b : UInt8) : State :=
  if b = openBrace then { s with depth := s.depth + 1 }
  else if b = closeBrace then
    { s with depth := s.depth - 1, ranges := s.ranges.dropWhile (s.depth - 1 < ·) }
  else s

/-- A byte between tokens. -/
def start (s : State) (p : Place) (b : UInt8) (rest : Bytes) : State :=
  if isSpace b then s.take .between 1
  else if wordStart b rest ≠ 0 then s.take (.lexeme .word p [b]) (wordStart b rest)
  else if startsNumber b rest then s.take (.lexeme .number p [b]) 1
  else if b = doubleQuote || b = singleQuote then s.take (.literal b p [b]) 1
  else if b = numberSign && startsDirective rest then s.take (.directive (.name [])) 1
  else if b = slash && rest.head? = some slash then s.take (.comment false none) 2
  else if b = slash && rest.head? = some star then s.take (.comment true none) 2
  else if b = backslash && joinLength rest ≠ 0 then s.take .between (joinLength rest + 1)
  else (s.countBrace b).take (.lexeme .mark p [b]) (markLength b rest)

/-- The ranges after the name of a directive. -/
def countRange (s : State) (name : String) : State :=
  if openingDirectives.contains name then { s with ranges := s.depth :: s.ranges }
  else if name = "endif" then { s with ranges := s.ranges.drop 1 }
  else s

/-- Whether the innermost range can go on or end here: no brace has been opened inside. -/
def inRange (s : State) : Bool := s.ranges.head? = some s.depth

/-- A byte inside a directive after its name. -/
def inDirective (s : State) (d : Directive) (p : Place) (b : UInt8) (rest : Bytes) : State :=
  let stay (d : Directive) (length : Nat) : State := s.take (.directive d) length
  let opensLine := b = slash && rest.head? = some slash
  let opensBlock := b = slash && rest.head? = some star
  let joins := b = backslash && joinLength rest ≠ 0
  match d with
  | .name _ => stay d 1
  | .subject defines false =>
    if wordStart b rest ≠ 0 then stay (.subject defines true) (wordStart b rest)
    else if opensLine then s.take (.comment false (some d)) 2
    else if opensBlock then s.take (.comment true (some d)) 2
    else if defines && b = newlineByte then s.take .between 1
    else stay d 1
  | .subject defines true =>
    if wordMore b rest ≠ 0 then stay d (wordMore b rest)
    else if !defines then s.start p b rest
    else if b = openRound then stay .parameters 1
    else if b = newlineByte then s.take .between 1
    else if opensLine then s.take (.comment false (some (.argument false))) 2
    else if opensBlock then s.take (.comment true (some (.argument false))) 2
    else if joins then stay (.argument false) (joinLength rest + 1)
    else stay (.argument (!isSpace b)) 1
  | .parameters =>
    if b = closeRound then stay (.argument false) 1
    else if opensBlock then s.take (.comment true (some d)) 2
    else if joins then stay d (joinLength rest + 1)
    else if b = newlineByte then s.take .between 1
    else stay d 1
  | .path none =>
    if b = newlineByte then s.take .between 1
    else if b = doubleQuote then stay (.path (some doubleQuote)) 1
    else if b = lessThan then stay (.path (some greaterThan)) 1
    else if opensLine then s.take (.comment false (some d)) 2
    else if opensBlock then s.take (.comment true (some d)) 2
    else if joins then stay d (joinLength rest + 1)
    else stay d 1
  | .path (some close) =>
    if b = newlineByte then s.take .between 1
    else if b = close then stay (.path none) 1
    else if b = backslash && close = doubleQuote then stay d 2
    else stay d 1
  | .condition depth complete =>
    if b = newlineByte then
      if depth = 0 && complete then s.take .between 1 else stay d 1
    else if isSpace b then stay d 1
    else if joins then stay d (joinLength rest + 1)
    else if opensLine then s.take (.comment false (some d)) 2
    else if opensBlock then s.take (.comment true (some d)) 2
    else if inWord b || b = dot || b = backslash then stay (.condition depth true) 1
    else if b = singleQuote then if complete then stay d 1 else stay (.character depth) 1
    else if b = openRound then stay (.condition (depth + 1) false) 1
    else if b = closeRound then stay (.condition (depth - 1) true) 1
    else stay (.condition depth false) 1
  | .character depth =>
    if b = newlineByte then s.take .between 1
    else if b = singleQuote then stay (.condition depth true) 1
    else if b = backslash then stay d 2
    else stay d 1
  | .argument false =>
    if b = newlineByte then s.take .between 1
    else if isSpace b then stay d 1
    else if joins then stay d (joinLength rest + 1)
    else if opensLine then s.take (.comment false (some d)) 2
    else if opensBlock then s.take (.comment true (some d)) 2
    else stay (.argument true) 1
  | .argument true =>
    -- a slash goes with the byte after it, whatever that is, unless they open a comment
    if b = newlineByte then s.take .between 1
    else if joins then stay d (joinLength rest + 1)
    else if opensBlock then s.take (.comment true (some (.argument false))) 2
    else if b = slash then stay d 2
    else stay d 1

/-- A byte inside a directive. -/
def direct (s : State) (d : Directive) (p : Place) (b : UInt8) (rest : Bytes) : State :=
  match d with
  | .name taken =>
    if inWord b && b < 128 && b ≠ 36 then s.take (.directive (.name (b :: taken))) 1
    else if taken.isEmpty then s.take (.directive d) 1
    else
      let name := Utf8.text taken.reverse
      let valid := s.inRange || !innerDirectives.contains name
      let counted := if valid then s.countRange name else s
      match Directive.afterName name valid with
      | none => counted.start p b rest
      | some d => counted.inDirective d p b rest
  | d => s.inDirective d p b rest

end State

/-- How a token of a class goes on. -/
def lexemeMore (cls : TokenClass) (taken : Bytes) (b : UInt8) (rest : Bytes) : Nat :=
  match cls with
  | .word => wordMore b rest
  | .number => numberMore taken.head? b rest
  | .literal | .mark => 0

/-- A byte wherever it stands: the token that it ends, and the state after it. -/
def step (s : State) (p : Place) (b : UInt8) (rest : Bytes) : List Token × State :=
  match s.ahead with
  | ahead + 1 => ([], { s with reading := s.reading.absorb b, ahead := ahead })
  | 0 =>
    match s.reading with
    | .between => ([], s.start p b rest)
    | .lexeme cls start taken =>
      match lexemeMore cls taken b rest with
      | 0 => ([s.token cls start taken p.offset], s.start p b rest)
      | length => ([], s.take (.lexeme cls start (b :: taken)) length)
    | .literal quote start taken =>
      if b = quote || b = newlineByte then
        ([s.token .literal start (b :: taken) (p.offset + 1)], s.take .between 1)
      else ([], s.take (.literal quote start (b :: taken)) (if b = backslash then 2 else 1))
    | .comment false inside =>
      if b = newlineByte then
        match inside with
        | none => ([], s.take .between 1)
        | some d => ([], s.direct d p b rest)
      else if b = backslash then ([], s.take s.reading (joinLength rest + 1))
      else ([], s)
    | .comment true inside =>
      if b = star && rest.head? = some slash then ([], s.take (.resume inside) 2) else ([], s)
    | .directive d => ([], s.direct d p b rest)

/-- The token that the end of the text ends. -/
def finish (s : State) (p : Place) : List Token :=
  match s.reading with
  | .lexeme cls start taken => [s.token cls start taken p.offset]
  | .literal _ start taken => [s.token .literal start taken p.offset]
  | _ => []

/-- The tokens from a place on. -/
def tokensFrom (s : State) (p : Place) : Bytes → List Token
  | [] => finish s p
  | b :: rest =>
    let (found, s) := step s p b rest
    found ++ tokensFrom s (p.after b) rest

/-- The tokens of a text.  A byte order mark before it is left out. -/
def tokens (text : Bytes) : List Token :=
  match text with
  | 0xEF :: 0xBB :: 0xBF :: rest => tokensFrom .initial ⟨3, 0, 3⟩ rest
  | _ => tokensFrom .initial ⟨0, 0, 0⟩ text

end PrototypeOrder.C
