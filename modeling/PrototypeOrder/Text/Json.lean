/-
# JSON documents

The values that reports are made of, and their text over several lines, indented by two
blanks a level.  Two alphabets are in use: one writes characters outside ASCII as they
are, the other escapes them.
-/
import PrototypeOrder.Text.Quoted

namespace PrototypeOrder

/-- A JSON value without fractions. -/
inductive JsonValue where
  | null
  | bool (b : Bool)
  | int (n : Int)
  | text (s : String)
  | list (xs : List JsonValue)
  | object (fields : List (String × JsonValue))

namespace JsonValue

/-- Which characters are written as they are. -/
inductive Alphabet where
  /-- all of Unicode -/
  | unicode
  /-- the printing characters of ASCII; any other is escaped by its UTF-16 units -/
  | ascii
deriving DecidableEq, Repr

/-- The escape of a UTF-16 unit. -/
def escapeUnit (unit : Nat) : List Char := '\\' :: 'u' :: Text.hex 4 unit

/-- The escapes of the UTF-16 units of a character. -/
def escapeUnits (c : Char) : List Char :=
  if c.toNat < 0x10000 then escapeUnit c.toNat
  else
    let n := c.toNat - 0x10000
    escapeUnit (0xD800 + n / 0x400) ++ escapeUnit (0xDC00 + n % 0x400)

/-- A character inside a string. -/
def escapeChar (alphabet : Alphabet) (c : Char) : List Char :=
  if c = '"' then ['\\', '"']
  else if c = '\\' then ['\\', '\\']
  else if c = '\n' then ['\\', 'n']
  else if c = '\r' then ['\\', 'r']
  else if c = '\t' then ['\\', 't']
  else if c.toNat = 8 then ['\\', 'b']
  else if c.toNat = 12 then ['\\', 'f']
  else if c.toNat < 0x20 then escapeUnit c.toNat
  else if alphabet = .ascii ∧ 0x7F ≤ c.toNat then escapeUnits c
  else [c]

/-- A string between quotes. -/
def quote (alphabet : Alphabet) (s : String) : String :=
  String.ofList ('"' :: s.toList.flatMap (escapeChar alphabet) ++ ['"'])

/-- The start of a line at a given depth. -/
def newline (depth : Nat) : String := String.ofList ('\n' :: List.replicate (2 * depth) ' ')

mutual

/-- A value at a given depth. -/
def renderAt (alphabet : Alphabet) (depth : Nat) : JsonValue → String
  | null => "null"
  | bool true => "true"
  | bool false => "false"
  | int n => toString n
  | text s => quote alphabet s
  | list [] => "[]"
  | list (x :: xs) =>
    "[" ++ newline (depth + 1) ++ renderAt alphabet (depth + 1) x ++
      renderItems alphabet (depth + 1) xs ++ newline depth ++ "]"
  | object [] => "\x7b\x7d"
  | object ((key, x) :: fields) =>
    "\x7b" ++ newline (depth + 1) ++ quote alphabet key ++ ": " ++
      renderAt alphabet (depth + 1) x ++ renderFields alphabet (depth + 1) fields ++
      newline depth ++ "\x7d"

/-- The further elements of a list, each on a line of its own. -/
def renderItems (alphabet : Alphabet) (depth : Nat) : List JsonValue → String
  | [] => ""
  | x :: xs =>
    "," ++ newline depth ++ renderAt alphabet depth x ++ renderItems alphabet depth xs

/-- The further fields of an object, each on a line of its own. -/
def renderFields (alphabet : Alphabet) (depth : Nat) : List (String × JsonValue) → String
  | [] => ""
  | (key, x) :: fields =>
    "," ++ newline depth ++ quote alphabet key ++ ": " ++ renderAt alphabet depth x ++
      renderFields alphabet depth fields

end

/-- The text of a value. -/
def render (alphabet : Alphabet) (v : JsonValue) : String := renderAt alphabet 0 v

/-- A string, or null. -/
def ofText? : Option String → JsonValue
  | some s => text s
  | none => null

end JsonValue

end PrototypeOrder
