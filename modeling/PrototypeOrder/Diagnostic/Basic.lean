/-
# Diagnostics

A violation as users see it:

    error: declaration and definition not in order
    math.h:2:5
      |
    2 | int add(int, int);
      |

    math.c:7:5
      |
    7 | int sub(int lhs, int rhs)
      |

A diagnostic is a list of pieces, each with the role it plays.  What is written
(`plain`) does not depend on the style; a style only says which stretches of the text
are marked, and how (`spans`).
-/
import PrototypeOrder.Order.Violation
import PrototypeOrder.Text.Cell

namespace PrototypeOrder

namespace Diagnostic

/-- The parts of a diagnostic that can be given a style. -/
inductive Role where
  | error
  | message
  | location
  | gutter
deriving DecidableEq, Repr

/-- A piece of a diagnostic. -/
structure Piece where
  /-- separators and source lines have no role -/
  role : Option Role
  text : String
  /-- marked even if there is no text in it -/
  markedEmpty : Bool := false
deriving DecidableEq, Repr

/-- A text without a role. -/
def bare (text : String) : Piece := ⟨none, text, false⟩

/-- A text with a role. -/
def styled (role : Role) (text : String) : Piece := ⟨some role, text, false⟩

/-- A line break. -/
def lineBreak : Piece := bare "\n"

/-- The line `error: <message>`. -/
def ofMessage (message : String) : List Piece :=
  [styled .error "error:", bare " ", styled .message message]

/-- The place, and below it the source line in a numbered gutter. -/
def ofLocation (l : Location) : List Piece :=
  let number := toString l.line
  let pad := String.ofList (List.replicate number.length ' ')
  [styled .location l.label, lineBreak,
    styled .gutter (pad ++ " |"), lineBreak,
    styled .gutter (number ++ " |"), bare (" " ++ l.lineText), lineBreak,
    styled .gutter (pad ++ " |")]

/-- The file that has no body. -/
def ofFile (file : String) : List Piece := [⟨some .location, file, true⟩]

/-- The places of a violation, a blank line between each two. -/
def ofLocations (ls : List Location) : List Piece :=
  [bare "\n\n"].intercalate (ls.map ofLocation)

/-- The parts of a violation below its message. -/
def parts : Violation → List (List Piece)
  | .emptyFile file => [ofFile file]
  | .located _ [] => []
  | .located _ ls => [ofLocations ls]

/-- A whole violation. -/
def ofViolation (v : Violation) : List Piece :=
  [lineBreak].intercalate (ofMessage v.message :: parts v)

/-! ## The text -/

/-- Control characters that are never written: bell, backspace, vertical tab, form feed,
carriage return. -/
def isDropped (c : Char) : Bool :=
  c.toNat = 7 || c.toNat = 8 || c.toNat = 11 || c.toNat = 12 || c.toNat = 13

/-- What is written of a text. -/
def written (text : String) : List Char := text.toList.filter fun c => !isDropped c

/-- What is written of a diagnostic. -/
def chars (pieces : List Piece) : List Char := pieces.flatMap fun p => written p.text

/-- The text of a diagnostic. -/
def plain (pieces : List Piece) : String := String.ofList (chars pieces)

/-- The text of a violation. -/
def format (v : Violation) : String := plain (ofViolation v)

/-- The text as it is printed: tabs become blanks, and a newline ends it. -/
def printed (pieces : List Piece) : String :=
  String.ofList (Text.withoutTabs (chars pieces ++ ['\n']))

/-! ## Styles -/

/-- The style of each part of a diagnostic; an empty style leaves a part unmarked. -/
structure Style where
  error : String
  message : String
  location : String
  gutter : String
deriving DecidableEq, Repr

namespace Style

/-- The colours used unless others are asked for. -/
def standard : Style := ⟨"bold red", "bold", "blue", "green"⟩

/-- No part is marked. -/
def none : Style := ⟨"", "", "", ""⟩

/-- The style of a role. -/
def ofRole (s : Style) : Role → String
  | .error => s.error
  | .message => s.message
  | .location => s.location
  | .gutter => s.gutter

/-- The style of a piece, if it is marked: its role has a style, and it has a text or is
marked without one. -/
def ofPiece (s : Style) (p : Piece) : Option String :=
  match p.role with
  | .none => .none
  | some role =>
    if s.ofRole role ≠ "" ∧ (p.text ≠ "" ∨ p.markedEmpty) then some (s.ofRole role) else .none

end Style

/-- A marked stretch of the text, in characters. -/
structure Span where
  start : Nat
  stop : Nat
  style : String
deriving DecidableEq, Repr

/-- The marked stretches of pieces that begin at a given place of the text. -/
def spansFrom (style : Style) (start : Nat) : List Piece → List Span
  | [] => []
  | p :: rest =>
    let stop := start + (written p.text).length
    match style.ofPiece p with
    | some s => ⟨start, stop, s⟩ :: spansFrom style stop rest
    | none => spansFrom style stop rest

/-- The marked stretches of a diagnostic, in order. -/
def spans (style : Style) (pieces : List Piece) : List Span := spansFrom style 0 pieces

end Diagnostic

end PrototypeOrder
