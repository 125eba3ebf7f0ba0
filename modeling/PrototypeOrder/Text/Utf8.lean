/-
# Reading bytes as UTF-8 text

Files are bytes, and names and lines are shown as text.  `Utf8.decode` turns any
byte string into characters: well-formed sequences give their character, and each
maximal part of a sequence that cannot be completed gives one replacement
character U+FFFD.

The decoder is a machine that remembers the sequence it is in the middle of.  A
byte that is not a continuation byte always ends that sequence, so decoding can be
cut before any such byte:

* `run_append_cons` : cutting a run before a byte that continues nothing;
* `decode_append_cons` : the same for whole byte strings.
-/

namespace PrototypeOrder

/-- The contents of a file. -/
abbrev Bytes := List UInt8

namespace Utf8

/-- Stands for bytes that are no UTF-8. -/
def replacement : Char := '\uFFFD'

/-- The bytes `80 .. BF`, which only ever continue a sequence. -/
def isContinuation (b : UInt8) : Bool := 0x80 ≤ b && b ≤ 0xBF

/-- A sequence that has been begun: how many bytes follow the next one, the range
the next one has to lie in, and the bits read so far. -/
structure Partial where
  more : Nat
  low : UInt8
  high : UInt8
  bits : Nat
deriving DecidableEq, Repr

/-- Where the decoder stands: between characters, or inside a sequence. -/
abbrev State := Option Partial

/-- What remains to be written when the text ends here. -/
def flush : State → List Char
  | none => []
  | some _ => [replacement]

/-- A byte read between characters. -/
def start (b : UInt8) : List Char × State :=
  if b < 0x80 then ([Char.ofNat b.toNat], none)
  else if b < 0xC2 then ([replacement], none)
  else if b < 0xE0 then ([], some ⟨0, 0x80, 0xBF, b.toNat - 0xC0⟩)
  else if b = 0xE0 then ([], some ⟨1, 0xA0, 0xBF, 0⟩)
  else if b = 0xED then ([], some ⟨1, 0x80, 0x9F, 0xD⟩)
  else if b < 0xF0 then ([], some ⟨1, 0x80, 0xBF, b.toNat - 0xE0⟩)
  else if b = 0xF0 then ([], some ⟨2, 0x90, 0xBF, 0⟩)
  else if b < 0xF4 then ([], some ⟨2, 0x80, 0xBF, b.toNat - 0xF0⟩)
  else if b = 0xF4 then ([], some ⟨2, 0x80, 0x8F, 4⟩)
  else ([replacement], none)

/-- A byte read in any state.  One that does not fit the sequence ends it, and is then
read as if it stood alone. -/
def feed : State → UInt8 → List Char × State
  | none, b => start b
  | some p, b =>
    if p.low ≤ b ∧ b ≤ p.high then
      let bits := p.bits * 64 + (b.toNat - 0x80)
      match p.more with
      | 0 => ([Char.ofNat bits], none)
      | more + 1 => ([], some ⟨more, 0x80, 0xBF, bits⟩)
    else (replacement :: (start b).1, (start b).2)

/-- The characters written from a state on. -/
def run : State → Bytes → List Char
  | s, [] => flush s
  | s, b :: bs => (feed s b).1 ++ run (feed s b).2 bs

/-- The text of a byte string. -/
def decode (bytes : Bytes) : List Char := run none bytes

/-- The text of a byte string, as a string. -/
def text (bytes : Bytes) : String := String.ofList (decode bytes)

/-- The bytes of a string. -/
def encode (s : String) : Bytes := s.toUTF8.toList

/-! ## Cutting before a byte that continues nothing -/

@[simp]
theorem run_nil (s : State) : run s [] = flush s := rfl

theorem run_cons (s : State) (b : UInt8) (bs : Bytes) :
    run s (b :: bs) = (feed s b).1 ++ run (feed s b).2 bs := rfl

/-- A sequence only accepts continuation bytes. -/
def Partial.Valid (p : Partial) : Prop := 0x80 ≤ p.low ∧ p.high ≤ 0xBF

/-- A state between characters, or inside a sequence that accepts continuation bytes. -/
def Valid : State → Prop
  | none => True
  | some p => p.Valid

theorem valid_start (b : UInt8) : Valid (start b).2 := by
  unfold start
  repeat' split
  all_goals simp [Valid, Partial.Valid]

theorem valid_feed {s : State} (b : UInt8) : Valid (feed s b).2 := by
  cases s with
  | none => exact valid_start b
  | some p =>
    simp only [feed]
    split
    · cases p.more <;> simp [Valid, Partial.Valid]
    · exact valid_start b

/-- A byte that continues nothing ends the sequence before it. -/
theorem feed_of_not_continuation {s : State} (hs : Valid s) {b : UInt8}
    (hb : isContinuation b = false) :
    feed s b = (flush s ++ (start b).1, (start b).2) := by
  cases s with
  | none => simp [feed, flush]
  | some p =>
    have hout : ¬ (p.low ≤ b ∧ b ≤ p.high) := by
      rintro ⟨h₁, h₂⟩
      have h₃ : (0x80 : UInt8) ≤ b := UInt8.le_trans hs.1 h₁
      have h₄ : b ≤ (0xBF : UInt8) := UInt8.le_trans h₂ hs.2
      simp [isContinuation, h₃, h₄] at hb
    simp [feed, hout, flush]

/-- A run can be cut before a byte that continues nothing. -/
theorem run_append_cons {s : State} (hs : Valid s) (xs ys : Bytes) {b : UInt8}
    (hb : isContinuation b = false) :
    run s (xs ++ b :: ys) = run s xs ++ run none (b :: ys) := by
  induction xs generalizing s with
  | nil =>
    rw [List.nil_append, run_cons, feed_of_not_continuation hs hb, run_nil, run_cons]
    simp [feed]
  | cons x xs ih =>
    rw [List.cons_append, run_cons, run_cons, ih (valid_feed x), List.append_assoc]

/-- Decoding can be cut before a byte that continues nothing. -/
theorem decode_append_cons (xs ys : Bytes) {b : UInt8} (hb : isContinuation b = false) :
    decode (xs ++ b :: ys) = decode xs ++ decode (b :: ys) :=
  run_append_cons (s := none) trivial xs ys hb

end Utf8

end PrototypeOrder
