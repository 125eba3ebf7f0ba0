/-
# Forms of characters in UTF-8

The bytes that stand for a character are a byte that stands alone, or a byte that begins a
sequence and bytes that complete it.  Both are said of the decoder's own states here, so that
what it does on a sequence can be compared with the forms of characters.

* `Utf8.Opens` : the bytes that begin a sequence, and the sequence they begin;
* `Utf8.Completes` : the bytes that complete a sequence, and the code that comes of it;
* `Utf8.exists_form`, `Utf8.form_of_completes` : forms of characters are sequences that are
  completed, and the other way round.
-/
import PrototypeOrder.Text.Utf8

namespace PrototypeOrder.Utf8

/-! ## Forms, by the number of their bytes -/

/-- The bytes that stand for a character. -/
def form (c : Char) : Bytes := String.utf8EncodeChar c

/-- The code of a character is not that of a surrogate and not too large. -/
theorem code_lt (c : Char) : c.toNat < 0xD800 ∨ 0xDFFF < c.toNat ∧ c.toNat < 0x110000 := c.valid

theorem form_one {c : Char} (h : c.toNat < 0x80) : form c = [UInt8.ofNat c.toNat] := by
  rw [form, String.utf8EncodeChar]
  simp only [Char.toNat_val]
  rw [if_pos (by omega)]

theorem form_two {c : Char} {x y : Nat} (hc : c.toNat = x * 64 + y) (hx : 2 ≤ x ∧ x < 32)
    (hy : y < 64) : form c = [UInt8.ofNat (0xC0 + x), UInt8.ofNat (0x80 + y)] := by
  have h₁ : c.toNat / 64 % 0x20 + 0xC0 = 0xC0 + x := by omega
  have h₂ : c.toNat % 0x40 + 0x80 = 0x80 + y := by omega
  rw [form, String.utf8EncodeChar]
  simp only [Char.toNat_val]
  rw [if_neg (by omega), if_pos (by omega), h₁, h₂]

theorem form_three {c : Char} {x y z : Nat} (hc : c.toNat = (x * 64 + y) * 64 + z)
    (hx : x < 16) (hxy : 32 ≤ x * 64 + y) (hy : y < 64) (hz : z < 64) :
    form c = [UInt8.ofNat (0xE0 + x), UInt8.ofNat (0x80 + y), UInt8.ofNat (0x80 + z)] := by
  have h₁ : c.toNat / 4096 % 0x10 + 0xE0 = 0xE0 + x := by omega
  have h₂ : c.toNat / 64 % 0x40 + 0x80 = 0x80 + y := by omega
  have h₃ : c.toNat % 0x40 + 0x80 = 0x80 + z := by omega
  rw [form, String.utf8EncodeChar]
  simp only [Char.toNat_val]
  rw [if_neg (by omega), if_neg (by omega), if_pos (by omega), h₁, h₂, h₃]

theorem form_four {c : Char} {x y z w : Nat} (hc : c.toNat = ((x * 64 + y) * 64 + z) * 64 + w)
    (hxy : 16 ≤ x * 64 + y) (hy : y < 64) (hz : z < 64) (hw : w < 64) :
    form c = [UInt8.ofNat (0xF0 + x), UInt8.ofNat (0x80 + y), UInt8.ofNat (0x80 + z),
      UInt8.ofNat (0x80 + w)] := by
  have hlt := code_lt c
  have h₁ : c.toNat / 262144 % 0x08 + 0xF0 = 0xF0 + x := by omega
  have h₂ : c.toNat / 4096 % 0x40 + 0x80 = 0x80 + y := by omega
  have h₃ : c.toNat / 64 % 0x40 + 0x80 = 0x80 + z := by omega
  have h₄ : c.toNat % 0x40 + 0x80 = 0x80 + w := by omega
  rw [form, String.utf8EncodeChar]
  simp only [Char.toNat_val]
  rw [if_neg (by omega), if_neg (by omega), if_neg (by omega), h₁, h₂, h₃, h₄]

theorem toNat_ofNat {n : Nat} (h : n < 0xD800 ∨ 0xDFFF < n ∧ n < 0x110000) :
    (Char.ofNat n).toNat = n := by
  have hvalid : n.isValidChar := h
  rw [Char.ofNat, dif_pos hvalid]
  rfl

/-! ## First bytes -/

theorem toNat_byte {n : Nat} (h : n < 256) : (UInt8.ofNat n).toNat = n :=
  UInt8.toNat_ofNat_of_lt' h

theorem start_one {x : Nat} (h : x < 0x80) : start (UInt8.ofNat x) = ([Char.ofNat x], none) := by
  have hx := toNat_byte (n := x) (by omega)
  have hlt : UInt8.ofNat x < 0x80 := UInt8.lt_iff_toNat_lt.2 (by rw [hx]; exact h)
  rw [start, if_pos hlt, hx]

theorem start_two : ∀ x < 32, 2 ≤ x →
    start (UInt8.ofNat (0xC0 + x)) = ([], some ⟨0, 0x80, 0xBF, x⟩) := by
  decide

theorem start_three : ∀ x < 16,
    start (UInt8.ofNat (0xE0 + x)) =
      ([], some ⟨1, if x = 0 then 0xA0 else 0x80, if x = 13 then 0x9F else 0xBF, x⟩) := by
  decide

theorem start_four : ∀ x < 5,
    start (UInt8.ofNat (0xF0 + x)) =
      ([], some ⟨2, if x = 0 then 0x90 else 0x80, if x = 4 then 0x8F else 0xBF, x⟩) := by
  decide

theorem start_refused {a : UInt8} (h : 0x80 ≤ a.toNat) (h' : a.toNat < 0xC2 ∨ 0xF5 ≤ a.toNat) :
    start a = ([replacement], none) := by
  unfold start
  simp only [UInt8.lt_iff_toNat_lt, ← UInt8.toNat_inj, UInt8.reduceToNat]
  grind

/-- The sequences that a byte can begin: they have two, three or four bytes.  The second byte is
such that no code is written with more bytes than it needs, none is that of a surrogate and none
is too large. -/
inductive Opens : UInt8 → Partial → Prop where
  | two {x : Nat} (hx : 2 ≤ x) (hx' : x < 32) :
      Opens (UInt8.ofNat (0xC0 + x)) ⟨0, 0x80, 0xBF, x⟩
  | three {x : Nat} (hx : x < 16) :
      Opens (UInt8.ofNat (0xE0 + x))
        ⟨1, if x = 0 then 0xA0 else 0x80, if x = 13 then 0x9F else 0xBF, x⟩
  | four {x : Nat} (hx : x < 5) :
      Opens (UInt8.ofNat (0xF0 + x))
        ⟨2, if x = 0 then 0x90 else 0x80, if x = 4 then 0x8F else 0xBF, x⟩

theorem Opens.start_eq {a : UInt8} {p : Partial} (h : Opens a p) : start a = ([], some p) := by
  cases h with
  | two hx hx' => exact start_two _ hx' hx
  | three hx => exact start_three _ hx
  | four hx => exact start_four _ hx

theorem Opens.unique {a : UInt8} {p p' : Partial} (h : Opens a p) (h' : Opens a p') : p = p' := by
  have hstart := h.start_eq
  rw [h'.start_eq] at hstart
  cases hstart
  rfl

theorem Opens.low_le_high {a : UInt8} {p : Partial} (h : Opens a p) : p.low ≤ p.high := by
  cases h with
  | two => exact (by decide : (0x80 : UInt8) ≤ 0xBF)
  | three => grind
  | four => grind

/-- A byte stands for a character, begins a sequence, or does neither. -/
theorem start_cases (a : UInt8) :
    (∃ x, x < 0x80 ∧ a = UInt8.ofNat x) ∨ (∃ p, Opens a p) ∨
      start a = ([replacement], none) := by
  have hlt : a.toNat < 256 := a.toNat_lt
  have ha : ∀ k ≤ a.toNat, UInt8.ofNat (k + (a.toNat - k)) = a := by
    intro k hk
    rw [Nat.add_sub_cancel' hk, UInt8.ofNat_toNat]
  by_cases h₁ : a.toNat < 0x80
  · exact Or.inl ⟨a.toNat, h₁, by simp⟩
  by_cases h₂ : a.toNat < 0xC2
  · exact Or.inr (Or.inr (start_refused (by omega) (Or.inl h₂)))
  by_cases h₃ : a.toNat < 0xE0
  · rw [← ha 0xC0 (by omega)]
    exact Or.inr (Or.inl ⟨_, .two (by omega) (by omega)⟩)
  by_cases h₄ : a.toNat < 0xF0
  · rw [← ha 0xE0 (by omega)]
    exact Or.inr (Or.inl ⟨_, .three (by omega)⟩)
  by_cases h₅ : a.toNat < 0xF5
  · rw [← ha 0xF0 (by omega)]
    exact Or.inr (Or.inl ⟨_, .four (by omega)⟩)
  · exact Or.inr (Or.inr (start_refused (by omega) (Or.inr (by omega))))

/-! ## Bytes that complete a sequence -/

namespace Partial

/-- Whether a byte continues the sequence. -/
def Takes (p : Partial) (b : UInt8) : Prop := p.low ≤ b ∧ b ≤ p.high

/-- The bits read so far and those of the next byte. -/
def bitsWith (p : Partial) (b : UInt8) : Nat := p.bits * 64 + (b.toNat - 0x80)

/-- The sequence after one more byte, if `more` others follow. -/
def next (p : Partial) (b : UInt8) (more : Nat) : Partial := ⟨more, 0x80, 0xBF, p.bitsWith b⟩

/-- A byte that continues a sequence carries six bits. -/
theorem takes_iff {p : Partial} {l h : Nat} (hlow : p.low.toNat = 0x80 + l)
    (hhigh : p.high.toNat = 0x80 + h) (b : UInt8) :
    p.Takes b ↔ ∃ y, l ≤ y ∧ y ≤ h ∧ b = UInt8.ofNat (0x80 + y) := by
  have hlt : p.high.toNat < 256 := p.high.toNat_lt
  rw [Takes, UInt8.le_iff_toNat_le, UInt8.le_iff_toNat_le, hlow, hhigh]
  constructor
  · rintro ⟨hl, hh⟩
    refine ⟨b.toNat - 0x80, by omega, by omega, ?_⟩
    have hb : 0x80 + (b.toNat - 0x80) = b.toNat := by omega
    rw [hb, UInt8.ofNat_toNat]
  · rintro ⟨y, hl, hh, rfl⟩
    rw [toNat_byte (by omega)]
    omega

theorem bitsWith_byte (p : Partial) {y : Nat} (hy : y < 64) :
    p.bitsWith (UInt8.ofNat (0x80 + y)) = p.bits * 64 + y := by
  have hbyte : (UInt8.ofNat (0x80 + y)).toNat = 0x80 + y := toNat_byte (by omega)
  unfold bitsWith
  omega

end Partial

/-- The bytes that end a sequence that has been begun, and the code it gives. -/
inductive Completes : Partial → Bytes → Nat → Prop where
  | last {p : Partial} {b : UInt8} (hb : p.Takes b) (hmore : p.more = 0) :
      Completes p [b] (p.bitsWith b)
  | next {p : Partial} {b : UInt8} {more : Nat} {bs : Bytes} {n : Nat} (hb : p.Takes b)
      (hmore : p.more = more + 1) (h : Completes (p.next b more) bs n) : Completes p (b :: bs) n

section

-- the next byte lies between `80 + l` and `80 + h`, and carries six bits
variable {low high : UInt8} {l h : Nat} (hlow : low.toNat = 0x80 + l)
  (hhigh : high.toNat = 0x80 + h) (hh : h < 64) {bits n : Nat} {bs : Bytes}
include hlow hhigh hh

theorem completes_last_iff :
    Completes ⟨0, low, high, bits⟩ bs n ↔
      ∃ y, (l ≤ y ∧ y ≤ h) ∧ bs = [UInt8.ofNat (0x80 + y)] ∧ n = bits * 64 + y := by
  constructor
  · intro hc
    cases hc with
    | last hb _ =>
      obtain ⟨y, hl, hy, rfl⟩ := (Partial.takes_iff hlow hhigh _).1 hb
      exact ⟨y, ⟨hl, hy⟩, rfl, Partial.bitsWith_byte _ (by omega)⟩
    | next _ hmore _ => cases hmore
  · rintro ⟨y, ⟨hl, hy⟩, rfl, rfl⟩
    have hc := Completes.last (p := ⟨0, low, high, bits⟩)
      ((Partial.takes_iff hlow hhigh _).2 ⟨y, hl, hy, rfl⟩) rfl
    rwa [Partial.bitsWith_byte _ (by omega)] at hc

theorem completes_next_iff {more : Nat} :
    Completes ⟨more + 1, low, high, bits⟩ bs n ↔
      ∃ y rest, (l ≤ y ∧ y ≤ h) ∧ bs = UInt8.ofNat (0x80 + y) :: rest ∧
        Completes ⟨more, 0x80, 0xBF, bits * 64 + y⟩ rest n := by
  constructor
  · intro hc
    cases hc with
    | last _ hmore => cases hmore
    | next hb hmore hc =>
      cases hmore
      obtain ⟨y, hl, hy, rfl⟩ := (Partial.takes_iff hlow hhigh _).1 hb
      rw [Partial.next, Partial.bitsWith_byte _ (by omega)] at hc
      exact ⟨y, _, ⟨hl, hy⟩, rfl, hc⟩
  · rintro ⟨y, rest, ⟨hl, hy⟩, rfl, hc⟩
    refine .next ((Partial.takes_iff hlow hhigh _).2 ⟨y, hl, hy, rfl⟩) rfl ?_
    rw [Partial.next, Partial.bitsWith_byte _ (by omega)]
    exact hc

end

/-- The last byte of a sequence. -/
theorem completes_two_iff {x n : Nat} {bs : Bytes} :
    Completes ⟨0, 0x80, 0xBF, x⟩ bs n ↔
      ∃ y, y < 64 ∧ bs = [UInt8.ofNat (0x80 + y)] ∧ n = x * 64 + y := by
  rw [completes_last_iff (l := 0) (h := 63) rfl rfl (by omega)]
  refine exists_congr fun y => and_congr_left fun _ => ?_
  omega

/-- The last two bytes of a sequence of four. -/
theorem completes_next_two_iff {x n : Nat} {bs : Bytes} :
    Completes ⟨1, 0x80, 0xBF, x⟩ bs n ↔
      ∃ y z, y < 64 ∧ z < 64 ∧ bs = [UInt8.ofNat (0x80 + y), UInt8.ofNat (0x80 + z)] ∧
        n = (x * 64 + y) * 64 + z := by
  rw [completes_next_iff (l := 0) (h := 63) rfl rfl (by omega)]
  simp only [completes_two_iff]
  constructor
  · rintro ⟨y, -, hy, rfl, z, hz, rfl, rfl⟩
    exact ⟨y, z, by omega, hz, rfl, rfl⟩
  · rintro ⟨y, z, hy, hz, rfl, rfl⟩
    exact ⟨y, _, by omega, rfl, z, hz, rfl, rfl⟩

/-- The bytes after the first of a sequence of three. -/
theorem completes_three_iff {x n : Nat} {bs : Bytes} :
    Completes ⟨1, if x = 0 then 0xA0 else 0x80, if x = 13 then 0x9F else 0xBF, x⟩ bs n ↔
      ∃ y z, ((x = 0 → 32 ≤ y) ∧ (x = 13 → y < 32) ∧ y < 64 ∧ z < 64) ∧
        bs = [UInt8.ofNat (0x80 + y), UInt8.ofNat (0x80 + z)] ∧ n = (x * 64 + y) * 64 + z := by
  rw [completes_next_iff (l := if x = 0 then 32 else 0) (h := if x = 13 then 31 else 63)
    (by split <;> rfl) (by split <;> rfl) (by split <;> omega)]
  simp only [completes_two_iff]
  constructor
  · rintro ⟨y, -, hy, rfl, z, hz, rfl, rfl⟩
    refine ⟨y, z, ?_, rfl, rfl⟩
    grind
  · rintro ⟨y, z, hyz, rfl, rfl⟩
    refine ⟨y, _, ?_, rfl, z, hyz.2.2.2, rfl, rfl⟩
    grind

/-- The bytes after the first of a sequence of four. -/
theorem completes_four_iff {x n : Nat} {bs : Bytes} :
    Completes ⟨2, if x = 0 then 0x90 else 0x80, if x = 4 then 0x8F else 0xBF, x⟩ bs n ↔
      ∃ y z w, ((x = 0 → 16 ≤ y) ∧ (x = 4 → y < 16) ∧ y < 64 ∧ z < 64 ∧ w < 64) ∧
        bs = [UInt8.ofNat (0x80 + y), UInt8.ofNat (0x80 + z), UInt8.ofNat (0x80 + w)] ∧
        n = ((x * 64 + y) * 64 + z) * 64 + w := by
  rw [completes_next_iff (l := if x = 0 then 16 else 0) (h := if x = 4 then 15 else 63)
    (by split <;> rfl) (by split <;> rfl) (by split <;> omega)]
  simp only [completes_next_two_iff]
  constructor
  · rintro ⟨y, -, hy, rfl, z, w, hz, hw, rfl, rfl⟩
    refine ⟨y, z, w, ?_, rfl, rfl⟩
    grind
  · rintro ⟨y, z, w, hyzw, rfl, rfl⟩
    refine ⟨y, _, ?_, rfl, z, w, hyzw.2.2.2.1, hyzw.2.2.2.2, rfl, rfl⟩
    grind

/-! ## Forms as sequences -/

/-- The form of a character is a byte that stands alone, or one that begins a sequence and bytes
that complete it. -/
theorem exists_form (c : Char) :
    (∃ a, form c = [a] ∧ start a = ([c], none) ∧ c ≠ replacement) ∨
      ∃ a p tail, form c = a :: tail ∧ Opens a p ∧ Completes p tail c.toNat := by
  have hcode := code_lt c
  by_cases h₁ : c.toNat < 0x80
  · refine Or.inl ⟨_, form_one h₁, by rw [start_one h₁, Char.ofNat_toNat], ?_⟩
    rintro rfl
    exact absurd h₁ (by decide)
  by_cases h₂ : c.toNat < 0x800
  · have hc : c.toNat = c.toNat / 64 * 64 + c.toNat % 64 := by omega
    refine Or.inr ⟨_, _, _, form_two hc (by omega) (by omega), .two (by omega) (by omega), ?_⟩
    exact completes_two_iff.2 ⟨_, by omega, rfl, hc⟩
  by_cases h₃ : c.toNat < 0x10000
  · have hc : c.toNat = (c.toNat / 4096 * 64 + c.toNat / 64 % 64) * 64 + c.toNat % 64 := by omega
    refine Or.inr ⟨_, _, _, form_three hc (by omega) (by omega) (by omega) (by omega),
      .three (by omega), ?_⟩
    exact completes_three_iff.2 ⟨_, _, by omega, rfl, hc⟩
  · have hc : c.toNat = ((c.toNat / 262144 * 64 + c.toNat / 4096 % 64) * 64 +
        c.toNat / 64 % 64) * 64 + c.toNat % 64 := by omega
    refine Or.inr ⟨_, _, _, form_four hc (by omega) (by omega) (by omega) (by omega),
      .four (by omega), ?_⟩
    exact completes_four_iff.2 ⟨_, _, _, by omega, rfl, hc⟩

/-- A byte that begins a sequence and bytes that complete it are the form of a character. -/
theorem form_of_completes {a : UInt8} {p : Partial} {tail : Bytes} {n : Nat} (ha : Opens a p)
    (h : Completes p tail n) : form (Char.ofNat n) = a :: tail := by
  cases ha with
  | two hx hx' =>
    obtain ⟨y, hy, rfl, rfl⟩ := completes_two_iff.1 h
    exact form_two (toNat_ofNat (by omega)) ⟨hx, hx'⟩ hy
  | three hx =>
    obtain ⟨y, z, hyz, rfl, rfl⟩ := completes_three_iff.1 h
    exact form_three (toNat_ofNat (by omega)) hx (by omega) (by omega) (by omega)
  | four hx =>
    obtain ⟨y, z, w, hyzw, rfl, rfl⟩ := completes_four_iff.1 h
    exact form_four (toNat_ofNat (by omega)) (by omega) (by omega) (by omega) (by omega)

end PrototypeOrder.Utf8
