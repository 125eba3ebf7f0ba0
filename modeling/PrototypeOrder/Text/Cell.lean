/-
# Display cells and tab stops

A terminal shows a wide character in two cells and any other in one.  A tab is shown
as blanks up to the next tab stop of its line, and tab stops are eight cells apart.
-/
import PrototypeOrder.Text.Blank

namespace PrototypeOrder.Text

/-- The ranges of wide characters: East Asian wide and full-width forms and emoji. -/
def wideRanges : List (Nat × Nat) :=
  [
    (0x1100, 0x115F), (0x231A, 0x231B), (0x2329, 0x232A), (0x23E9, 0x23EC), (0x23F0, 0x23F0),
    (0x23F3, 0x23F3), (0x25FD, 0x25FE), (0x2614, 0x2615), (0x2648, 0x2653), (0x267F, 0x267F),
    (0x2693, 0x2693), (0x26A1, 0x26A1), (0x26AA, 0x26AB), (0x26BD, 0x26BE), (0x26C4, 0x26C5),
    (0x26CE, 0x26CE), (0x26D4, 0x26D4), (0x26EA, 0x26EA), (0x26F2, 0x26F3), (0x26F5, 0x26F5),
    (0x26FA, 0x26FA), (0x26FD, 0x26FD), (0x2705, 0x2705), (0x270A, 0x270B), (0x2728, 0x2728),
    (0x274C, 0x274C), (0x274E, 0x274E), (0x2753, 0x2755), (0x2757, 0x2757), (0x2795, 0x2797),
    (0x27B0, 0x27B0), (0x27BF, 0x27BF), (0x2B1B, 0x2B1C), (0x2B50, 0x2B50), (0x2B55, 0x2B55),
    (0x2E80, 0x303E), (0x3041, 0x3247), (0x3250, 0x4DBF), (0x4E00, 0xA4C6), (0xA960, 0xA97C),
    (0xAC00, 0xD7A3), (0xF900, 0xFAD9), (0xFE10, 0xFE19), (0xFE30, 0xFE6B), (0xFF01, 0xFF60),
    (0xFFE0, 0xFFE6), (0x16FE0, 0x18D08), (0x1AFF0, 0x1B2FB), (0x1F004, 0x1F004),
    (0x1F0CF, 0x1F0CF), (0x1F18E, 0x1F18E), (0x1F191, 0x1F19A), (0x1F200, 0x1F265),
    (0x1F300, 0x1F320), (0x1F32D, 0x1F335), (0x1F337, 0x1F37C), (0x1F37E, 0x1F393),
    (0x1F3A0, 0x1F3CA), (0x1F3CF, 0x1F3D3), (0x1F3E0, 0x1F3F0), (0x1F3F4, 0x1F3F4),
    (0x1F3F8, 0x1F43E), (0x1F440, 0x1F440), (0x1F442, 0x1F4FC), (0x1F4FF, 0x1F53D),
    (0x1F54B, 0x1F54E), (0x1F550, 0x1F567), (0x1F57A, 0x1F57A), (0x1F595, 0x1F596),
    (0x1F5A4, 0x1F5A4), (0x1F5FB, 0x1F64F), (0x1F680, 0x1F6C5), (0x1F6CC, 0x1F6CC),
    (0x1F6D0, 0x1F6D2), (0x1F6D5, 0x1F6DF), (0x1F6EB, 0x1F6EC), (0x1F6F4, 0x1F6FC),
    (0x1F7E0, 0x1F7F0), (0x1F90C, 0x1F93A), (0x1F93C, 0x1F945), (0x1F947, 0x1F9FF),
    (0x1FA70, 0x1FAF6), (0x20000, 0x2EBE0), (0x2F800, 0x2FA1D), (0x30000, 0x3134A)
  ]

/-- The number of cells a character takes. -/
def cells (c : Char) : Nat := if inRanges wideRanges c then 2 else 1

/-- The distance between tab stops. -/
def tabStop : Nat := 8

/-- The blanks shown for a tab that starts in a given cell of its line. -/
def tabWidth (column : Nat) : Nat := tabStop - column % tabStop

/-- Characters, each with something attached to it, after tabs have been replaced by
blanks that carry what the tab carried.  `column` is the cell the first character
starts in. -/
def expandTabs {α : Type} (column : Nat) : List (Char × α) → List (Char × α)
  | [] => []
  | (c, a) :: rest =>
    if c = '\t' then
      List.replicate (tabWidth column) (' ', a) ++ expandTabs (column + tabWidth column) rest
    else if c = '\n' then (c, a) :: expandTabs 0 rest
    else (c, a) :: expandTabs (column + cells c) rest

/-- A text with its tabs replaced by blanks. -/
def withoutTabs (cs : List Char) : List Char :=
  (expandTabs 0 (cs.map fun c => (c, ()))).map Prod.fst

end PrototypeOrder.Text
