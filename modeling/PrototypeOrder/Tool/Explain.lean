/-
# Tool: explain a violation

Tells what a kind of violation means and how to mend it.
-/
import PrototypeOrder.Order.Violation
import PrototypeOrder.Text.Blank

namespace PrototypeOrder.Tool

/-- What a kind of violation means and how to mend it. -/
def explanation : Kind → String
  | .fault .syntaxError =>
    "The parser produced an ERROR node, so the file is not checked further. " ++
      "Fix the reported line (stray characters, unbalanced braces) first."
  | .fault .undeclaredDefinition =>
    "A non-static function other than main has a body but every prototype " ++
      "has already been matched. Add a prototype for it to the header, at the " ++
      "position matching the body's position."
  | .fault .outOfOrder =>
    "The next unmatched prototype names a different function than the body " ++
      "being checked. Reorder the prototypes or the bodies so both lists " ++
      "follow the same sequence."
  | .fault .unexpectedDeclaration =>
    "A function prototype appears after the first function body. All " ++
      "prototypes must precede all bodies."
  | .fault .undefinedDeclaration =>
    "A prototype was never matched by a body. Define the function or remove " ++
      "the prototype."
  | .emptyHeaderOnly =>
    "A file checked on its own must contain at least one function body. " ++
      "Pass the matching source file as well, or add the definitions."

/-- The answer to a kind that is not known. -/
def unknownKind (name : String) : String :=
  s!"Error: unknown violation kind '{name}'. Known kinds: " ++
    ", ".intercalate (Kind.all.map Kind.name)

/-- Explains the kind with a given name; white space around the name does not count. -/
def explain (name : String) : String :=
  match Kind.ofName? (Text.trim name) with
  | some k => s!"### {k.name}: {k.message}\n\n{explanation k}"
  | none => unknownKind name

end PrototypeOrder.Tool
