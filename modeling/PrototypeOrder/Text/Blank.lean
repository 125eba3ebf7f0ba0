/-
# Blank characters

The characters that count as white space around a word, and a word without the
white space around it.
-/

namespace PrototypeOrder.Text

/-- The ranges of white space: the ASCII controls that move the cursor or separate
records, the blank, and the spaces and separators of Unicode.  The zero width space
U+200B is none. -/
def blankRanges : List (Nat × Nat) :=
  [(0x9, 0xD), (0x1C, 0x20), (0x85, 0x85), (0xA0, 0xA0), (0x1680, 0x1680), (0x2000, 0x200A),
    (0x2028, 0x2029), (0x202F, 0x202F), (0x205F, 0x205F), (0x3000, 0x3000)]

/-- Whether a code point lies in one of some ranges. -/
def inRanges (ranges : List (Nat × Nat)) (c : Char) : Bool :=
  ranges.any fun r => r.1 ≤ c.toNat && c.toNat ≤ r.2

/-- White space. -/
def isBlank (c : Char) : Bool := inRanges blankRanges c

/-- A word without the white space before and after it. -/
def trim (s : String) : String :=
  String.ofList ((s.toList.dropWhile isBlank).reverse.dropWhile isBlank).reverse

end PrototypeOrder.Text
