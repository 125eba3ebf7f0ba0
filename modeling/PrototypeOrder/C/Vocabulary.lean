/-
# Words of the C language

Every word plays a part: it names something, or it has a meaning of its own.  Where a word
with a meaning cannot stand, it is a name like any other, so the parts are asked for by
place: what can begin the name of a type, what can go with a declaration, what begins a
statement or an operand.
-/

namespace PrototypeOrder.C

/-- The parts that words play. -/
inductive Role where
  /-- a storage class, or what is written in its place -/
  | storage
  /-- a qualifier of a type -/
  | qualifier
  /-- a word followed by something in brackets that says more about a declaration -/
  | attribute
  /-- how a function is called -/
  | convention
  /-- what kind of pointer an asterisk makes -/
  | pointer
  /-- a word before an asterisk, followed by what the pointer is based on -/
  | base
  /-- the size or the sign of a type -/
  | size
  /-- a built-in type -/
  | primitive
  /-- a word that begins a type with members -/
  | compound
  /-- a word that begins the definition of a type name -/
  | typeDefinition
  /-- assembly -/
  | assembly
  /-- a word that begins a statement -/
  | statement
  /-- a word that begins an operand and has something after it -/
  | operator
  /-- a word for a value -/
  | constant
  /-- any other word -/
  | name
deriving DecidableEq, Repr

/-- The words of each part. -/
def Role.words : Role → List String
  | .storage => ["extern", "static", "auto", "register", "inline", "__inline", "__inline__",
      "__forceinline", "thread_local", "__thread"]
  | .qualifier => ["const", "constexpr", "volatile", "restrict", "__restrict__", "__extension__",
      "_Atomic", "_Noreturn", "noreturn", "_Nonnull", "_Nullable"]
  | .attribute => ["__attribute__", "__attribute", "__declspec", "alignas", "_Alignas"]
  | .convention => ["__cdecl", "__clrcall", "__stdcall", "__fastcall", "__thiscall",
      "__vectorcall"]
  | .pointer => ["__restrict", "__uptr", "__sptr", "_unaligned", "__unaligned"]
  | .base => ["__based"]
  | .size => ["signed", "unsigned", "long", "short"]
  | .primitive => ["void", "char", "int", "float", "double", "bool", "size_t", "ssize_t",
      "ptrdiff_t", "intptr_t", "uintptr_t", "charptr_t", "nullptr_t", "max_align_t", "int8_t",
      "int16_t", "int32_t", "int64_t", "uint8_t", "uint16_t", "uint32_t", "uint64_t", "char8_t",
      "char16_t", "char32_t", "char64_t"]
  | .compound => ["struct", "union", "enum"]
  | .typeDefinition => ["typedef"]
  | .assembly => ["asm", "__asm__", "__asm"]
  | .statement => ["if", "while", "for", "do", "switch", "case", "default", "return", "goto",
      "break", "continue", "__try", "__leave"]
  | .operator => ["sizeof", "offsetof", "_Alignof", "alignof", "_alignof", "__alignof__",
      "__alignof", "_Generic"]
  | .constant => ["NULL", "nullptr", "true", "false", "TRUE", "FALSE"]
  | .name => []

/-- The parts whose words have a meaning of their own. -/
def Role.all : List Role :=
  [.storage, .qualifier, .attribute, .convention, .pointer, .base, .size, .primitive, .compound,
    .typeDefinition, .assembly, .statement, .operator, .constant]

/-- The part that a word plays. -/
def Role.ofWord (w : String) : Role := (Role.all.find? fun r => r.words.contains w).getD .name

/-- Words that go with the type of a declaration, before or after it. -/
def Role.isModifier : Role → Bool
  | .storage | .qualifier | .attribute | .convention => true
  | _ => false

/-- Words that have to be part of a type. -/
def Role.isType : Role → Bool
  | .size | .primitive | .compound => true
  | _ => false

/-- Words that a declaration can begin with, names apart. -/
def Role.isSpecifier (r : Role) : Bool := r.isModifier || r.isType

/-- Words that the name of a type in brackets can begin with, names apart. -/
def Role.beginsTypeName (r : Role) : Bool := r.isType || r = .qualifier

/-- Words that begin an operand and are no names there. -/
def Role.beginsOperand : Role → Bool
  | .operator | .constant | .assembly => true
  | _ => false

/-- Words that are no names where the declarator of a declaration begins. -/
def Role.isBeforeDeclarator (r : Role) : Bool := r.isModifier || r = .base || r = .size

/-- Words that are no names after an asterisk. -/
def Role.isAfterAsterisk : Role → Bool
  | .qualifier | .attribute | .pointer | .base => true
  | _ => false

/-- Words that are no names where a declarator in brackets begins. -/
def Role.isInBrackets : Role → Bool
  | .convention | .base => true
  | _ => false

end PrototypeOrder.C
