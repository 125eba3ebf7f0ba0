/-
# Diagnostics in colour

On a terminal each marked stretch is written between an escape sequence that turns its
style on and one that turns it off again.  No such stretch goes across the end of a line.
-/
import PrototypeOrder.Diagnostic.Basic

namespace PrototypeOrder.Diagnostic

/-- The attributes a style can name, with their codes, in the order the codes are
written. -/
def attributes : List (String × Nat) :=
  [("bold", 1), ("dim", 2), ("italic", 3), ("underline", 4), ("blink", 5), ("reverse", 7),
    ("strike", 9)]

/-- The colours a style can name, with their codes. -/
def colours : List (String × Nat) :=
  [("black", 30), ("red", 31), ("green", 32), ("yellow", 33), ("blue", 34), ("magenta", 35),
    ("cyan", 36), ("white", 37)]

/-- The words of a style. -/
def styleWords (style : String) : List String :=
  ((split ' ' style.toList).filter (· ≠ [])).map String.ofList

/-- The codes of a style: its attributes, then its colour.  A style with an unknown word
has none. -/
def codes (style : String) : List Nat :=
  let words := styleWords style
  if words.all fun w => (attributes.lookup w).isSome || (colours.lookup w).isSome then
    (attributes.filter fun a => a.1 ∈ words).map Prod.snd ++
      (words.filterMap (List.lookup · colours)).reverse.take 1
  else []

/-- A character and the codes it is shown with. -/
abbrev Glyph := Char × List Nat

/-- The characters of a diagnostic with their codes. -/
def glyphs (style : Style) (pieces : List Piece) : List Glyph :=
  pieces.flatMap fun p =>
    (written p.text).map fun c => (c, ((style.ofPiece p).map codes).getD [])

/-- Characters that are shown with given codes. -/
def painted (codes : List Nat) (cs : List Char) : List Char :=
  if codes = [] ∨ cs = [] then cs
  else
    '\x1b' :: '[' :: (";".intercalate (codes.map toString)).toList ++ 'm' :: cs ++
      ['\x1b', '[', '0', 'm']

/-- Writes characters, a run of equal codes at a time.  `run` holds the characters of the
run so far, the last one first. -/
def paintFrom (current : List Nat) (run : List Char) : List Glyph → List Char
  | [] => painted current run.reverse
  | (c, codes) :: rest =>
    if c = '\n' then painted current run.reverse ++ c :: paintFrom [] [] rest
    else if codes = current then paintFrom current (c :: run) rest
    else painted current run.reverse ++ paintFrom codes [c] rest

/-- A diagnostic as it is shown on a terminal with colours. -/
def coloured (style : Style) (pieces : List Piece) : String :=
  String.ofList (paintFrom [] [] (Text.expandTabs 0 (glyphs style pieces ++ [('\n', [])])))

/-- A diagnostic as it is shown, in colour or not. -/
def shown (style : Style) (colour : Bool) (pieces : List Piece) : String :=
  if colour then coloured style pieces else printed pieces

end PrototypeOrder.Diagnostic
