/-
# Tokens of the C language

A token is a word, a number, a string or character literal, or a punctuation mark, with its
place in the text.  Which bytes go on with a token is told here; how a text is cut into
tokens is told in the next module.
-/
import PrototypeOrder.Source.Location
import PrototypeOrder.C.Vocabulary

namespace PrototypeOrder.C

/-- The classes of token. -/
inductive TokenClass where
  | word
  | number
  | literal
  | mark
deriving DecidableEq, Repr

/-- A place in the text: its offset, row and column, all counted from zero. -/
structure Place where
  offset : Nat
  row : Nat
  column : Nat
deriving DecidableEq, Repr

/-- The place after a byte. -/
def Place.after (p : Place) (b : UInt8) : Place :=
  if b = newlineByte then ⟨p.offset + 1, p.row + 1, 0⟩ else ⟨p.offset + 1, p.row, p.column + 1⟩

/-- A place as a point of a tree. -/
def Place.point (p : Place) : Point := ⟨p.row, p.column⟩

/-- A token: what it is, its text, and where it begins and ends. -/
structure Token where
  cls : TokenClass
  text : String
  start : Place
  stop : Nat
  /-- the part a word plays -/
  role : Role
  /-- stands between a directive with a condition and the end of its range -/
  conditional : Bool
deriving Repr

namespace Token

/-- Whether a token is a word. -/
def isName (t : Token) : Bool := t.cls = .word

/-- Whether a token is a given punctuation mark. -/
def isMark (t : Token) (mark : String) : Bool := t.cls = .mark && t.text = mark

/-- Whether a token is one of some punctuation marks. -/
def isOneOf (t : Token) (marks : List String) : Bool := t.cls = .mark && marks.contains t.text

/-- Whether a token is a given word. -/
def isWord (t : Token) (word : String) : Bool := t.cls = .word && t.text = word

/-- Whether a token is a word of a given part. -/
def plays (t : Token) (role : Role) : Bool := t.cls = .word && t.role = role

/-- Whether a token opens a bracket. -/
def opens (t : Token) : Bool := t.isOneOf ["(", "[", "\x7b"]

/-- Whether a token closes a bracket. -/
def closes (t : Token) : Bool := t.isOneOf [")", "]", "\x7d"]

end Token

/-! ## Bytes -/

/-- The double quote. -/
def doubleQuote : UInt8 := 34

/-- The single quote. -/
def singleQuote : UInt8 := 39

/-- The slash. -/
def slash : UInt8 := 47

/-- The asterisk. -/
def star : UInt8 := 42

/-- The backslash. -/
def backslash : UInt8 := 92

/-- The number sign, which begins a directive. -/
def numberSign : UInt8 := 35

/-- The point. -/
def dot : UInt8 := 46

/-- The brackets. -/
def openRound : UInt8 := 40
def closeRound : UInt8 := 41
def openBrace : UInt8 := 123
def closeBrace : UInt8 := 125

/-- The angle brackets around the name of a file. -/
def lessThan : UInt8 := 60
def greaterThan : UInt8 := 62

/-- Bytes that a word can begin with: letters, the underscore, the dollar sign, and those
of characters outside ASCII. -/
def startsWord (b : UInt8) : Bool :=
  (97 ≤ b && b ≤ 122) || (65 ≤ b && b ≤ 90) || b = 95 || b = 36 || 128 ≤ b

/-- Decimal digits. -/
def isDigit (b : UInt8) : Bool := 48 ≤ b && b ≤ 57

/-- Hexadecimal digits. -/
def isHexDigit (b : UInt8) : Bool := isDigit b || (97 ≤ b && b ≤ 102) || (65 ≤ b && b ≤ 70)

/-- Bytes that go on with a word. -/
def inWord (b : UInt8) : Bool := startsWord b || isDigit b

/-- Bytes between tokens. -/
def isSpace (b : UInt8) : Bool := b = 32 || (9 ≤ b && b ≤ 13)

/-! ## How far a token goes on

Each function is given a byte and the bytes after it, and tells how many bytes go on with a
token from there: none, the byte alone, or some bytes after it as well. -/

/-- Whether some bytes begin with a number of hexadecimal digits. -/
def startsWithHex (count : Nat) (bs : Bytes) : Bool :=
  count ≤ bs.length && (bs.take count).all isHexDigit

/-- The length of a character written by its number in a word: a backslash and the letter `u`
with four digits, or `U` with eight. -/
def escapeLength (b : UInt8) (rest : Bytes) : Nat :=
  match rest with
  | 117 :: digits => if b = backslash && startsWithHex 4 digits then 6 else 0
  | 85 :: digits => if b = backslash && startsWithHex 8 digits then 10 else 0
  | _ => 0

/-- How a word begins. -/
def wordStart (b : UInt8) (rest : Bytes) : Nat :=
  if startsWord b then 1 else escapeLength b rest

/-- How a word goes on. -/
def wordMore (b : UInt8) (rest : Bytes) : Nat := if inWord b then 1 else escapeLength b rest

/-- Whether a number begins here. -/
def startsNumber (b : UInt8) (rest : Bytes) : Bool :=
  isDigit b || (b = dot && rest.head?.any isDigit)

/-- How a number goes on after the byte `last`: with a letter, a digit or a point, with a
quote between digits, or with the sign of an exponent. -/
def numberMore (last : Option UInt8) (b : UInt8) (rest : Bytes) : Nat :=
  let digitFollows := rest.head?.any isHexDigit
  let isSign := b = 43 || b = 45
  let afterExponent := last.any fun e => e = 101 || e = 69 || e = 112 || e = 80
  if inWord b || b = dot then 1
  else if b = singleQuote && digitFollows then 1
  else if isSign && afterExponent && digitFollows then 1
  else 0

/-- The punctuation marks of three and of two bytes. -/
def longMarks : List Bytes :=
  ["<<=", ">>=", "...", "->", "++", "--", "<<", ">>", "<=", ">=", "==", "!=", "&&", "||", "+=",
    "-=", "*=", "/=", "%=", "&=", "^=", "|="].map (·.toUTF8.toList)

/-- The length of the punctuation mark that begins here. -/
def markLength (b : UInt8) (rest : Bytes) : Nat :=
  ((longMarks.find? (·.isPrefixOf (b :: rest))).map (·.length)).getD 1

/-- The number of bytes after a backslash that join the next line to this one: a newline,
which a carriage return may come before. -/
def joinLength (rest : Bytes) : Nat :=
  match rest with
  | 10 :: _ => 1
  | 13 :: 10 :: _ => 2
  | _ => 0

end PrototypeOrder.C
