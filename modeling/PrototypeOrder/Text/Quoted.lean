/-
# Quoted text

How a path is quoted in the message of an operating-system error: between single
quotes, or between double quotes when it has a single quote and no double quote, with
a backslash before the quote and the backslash, and an escape for every character that
does not print.
-/
import PrototypeOrder.Text.Printable

namespace PrototypeOrder.Text

/-- The last `digits` hexadecimal digits of a number, in lower case. -/
def hex (digits n : Nat) : List Char :=
  match digits with
  | 0 => []
  | d + 1 => hex d (n / 16) ++ [Nat.digitChar (n % 16)]

/-- The escape of a character that does not print. -/
def escapeUnprintable (c : Char) : List Char :=
  if c.toNat < 0x100 then '\\' :: 'x' :: hex 2 c.toNat
  else if c.toNat < 0x10000 then '\\' :: 'u' :: hex 4 c.toNat
  else '\\' :: 'U' :: hex 8 c.toNat

/-- A character inside quotes. -/
def quoteChar (quote : Char) (c : Char) : List Char :=
  if c = quote ∨ c = '\\' then ['\\', c]
  else if c = '\n' then ['\\', 'n']
  else if c = '\r' then ['\\', 'r']
  else if c = '\t' then ['\\', 't']
  else if isPrintable c then [c]
  else escapeUnprintable c

/-- The quotes put around a text. -/
def quoteFor (cs : List Char) : Char :=
  if '\'' ∈ cs ∧ '"' ∉ cs then '"' else '\''

/-- A text between quotes. -/
def quoted (s : String) : String :=
  let quote := quoteFor s.toList
  String.ofList (quote :: s.toList.flatMap (quoteChar quote) ++ [quote])

end PrototypeOrder.Text
