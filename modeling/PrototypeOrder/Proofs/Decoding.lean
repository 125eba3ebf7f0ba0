/-
# What bytes spell

Which text some bytes spell can be said without a decoder.  The form of a character spells that
character.  Where no form stands, the longest bytes that some form begins with, or a single byte
if there are none, are broken, and spell one replacement character.

* `Utf8.Broken`, `Utf8.Spells` : broken bytes, and the text that bytes spell;
* `Utf8.Spells.unique` : bytes spell one text;
* `Utf8.spells_iff` : the decoder gives the text that bytes spell.

The decoder stands inside a sequence as long as some form begins with the bytes of the sequence.
It is stuck where the next byte does not continue the sequence, and what it has read by then is
what is broken.
-/
import PrototypeOrder.Proofs.CharacterForms

namespace PrototypeOrder.Utf8

/-! ## The decoder inside a sequence -/

theorem feed_of_takes_last {p : Partial} {b : UInt8} (hb : p.Takes b) (hmore : p.more = 0) :
    feed (some p) b = ([Char.ofNat (p.bitsWith b)], none) := by
  have hb' : p.low ≤ b ∧ b ≤ p.high := hb
  rw [feed, if_pos hb', hmore]
  rfl

theorem feed_of_takes_next {p : Partial} {b : UInt8} {more : Nat} (hb : p.Takes b)
    (hmore : p.more = more + 1) : feed (some p) b = ([], some (p.next b more)) := by
  have hb' : p.low ≤ b ∧ b ≤ p.high := hb
  rw [feed, if_pos hb', hmore]
  rfl

theorem run_of_refused {p : Partial} {b : UInt8} (hb : ¬ p.Takes b) (rest : Bytes) :
    run (some p) (b :: rest) = replacement :: run none (b :: rest) := by
  have hb' : ¬ (p.low ≤ b ∧ b ≤ p.high) := hb
  simp only [run_cons, feed, if_neg hb', List.cons_append]

/-- Bytes that complete a sequence give their character. -/
theorem Completes.run_append {p : Partial} {bs : Bytes} {n : Nat} (h : Completes p bs n)
    (rest : Bytes) : run (some p) (bs ++ rest) = Char.ofNat n :: run none rest := by
  induction h with
  | last hb hmore =>
    rw [List.singleton_append, run_cons, feed_of_takes_last hb hmore]
    rfl
  | next hb hmore _ ih =>
    rw [List.cons_append, run_cons, feed_of_takes_next hb hmore, List.nil_append, ih]

theorem Completes.length_eq {p : Partial} {bs : Bytes} {n : Nat} (h : Completes p bs n) :
    bs.length = p.more + 1 := by
  induction h with
  | last _ hmore => rw [hmore]; rfl
  | next _ hmore _ ih => rw [List.length_cons, ih, hmore]; rfl

/-- A sequence that has been begun can be completed. -/
theorem exists_completes (more : Nat) :
    ∀ p : Partial, p.more = more → p.low ≤ p.high → ∃ bs n, Completes p bs n := by
  induction more with
  | zero =>
    intro p hmore hp
    exact ⟨_, _, .last ⟨UInt8.le_refl p.low, hp⟩ hmore⟩
  | succ more ih =>
    intro p hmore hp
    have hnext : (p.next p.low more).low ≤ (p.next p.low more).high := by simp [Partial.next]
    obtain ⟨bs, n, h⟩ := ih (p.next p.low more) rfl hnext
    exact ⟨p.low :: bs, n, .next ⟨UInt8.le_refl p.low, hp⟩ hmore h⟩

/-- Bytes that go on with a sequence and do not end it, and the sequence after them. -/
inductive GoesOn : Partial → Bytes → Partial → Prop where
  | refl (p : Partial) : GoesOn p [] p
  | next {p q : Partial} {b : UInt8} {more : Nat} {bs : Bytes} (hb : p.Takes b)
      (hmore : p.more = more + 1) (h : GoesOn (p.next b more) bs q) : GoesOn p (b :: bs) q

namespace GoesOn

variable {p q : Partial} {bs : Bytes}

theorem low_le_high (h : GoesOn p bs q) (hp : p.low ≤ p.high) : q.low ≤ q.high := by
  induction h with
  | refl => exact hp
  | next _ _ _ ih => exact ih (by simp [Partial.next])

theorem completes_append (h : GoesOn p bs q) {tail : Bytes} {n : Nat} (hq : Completes q tail n) :
    Completes p (bs ++ tail) n := by
  induction h with
  | refl => exact hq
  | next hb hmore _ ih => exact .next hb hmore (ih hq)

theorem run_append (h : GoesOn p bs q) (rest : Bytes) :
    run (some p) (bs ++ rest) = run (some q) rest := by
  induction h with
  | refl => rfl
  | next hb hmore _ ih =>
    rw [List.cons_append, run_cons, feed_of_takes_next hb hmore, List.nil_append, ih]

theorem more_eq (h : GoesOn p bs q) : p.more = bs.length + q.more := by
  induction h with
  | refl => simp
  | next _ hmore _ ih =>
    have ih' : _ = _ + _ := ih
    simp only [Partial.next] at ih'
    rw [hmore, List.length_cons, ih']
    omega

/-- The byte after those that go on is taken if it goes on towards a character. -/
theorem takes_of_completes (h : GoesOn p bs q) {b : UInt8} {after : Bytes} {n : Nat}
    (hp : Completes p (bs ++ b :: after) n) : q.Takes b := by
  induction h with
  | refl =>
    cases hp with
    | last hb _ => exact hb
    | next hb _ _ => exact hb
  | @next p q b' more bs hb hmore _ ih =>
    generalize hbs : (b' :: bs) ++ b :: after = whole at hp
    cases hp with
    | last _ _ => simp at hbs
    | next _ hmore' hrest =>
      obtain ⟨rfl, rfl⟩ := List.cons.inj hbs
      rw [hmore, Nat.add_right_cancel_iff] at hmore'
      subst hmore'
      exact ih hrest

end GoesOn

/-- Bytes after a sequence that has been begun complete it, or go on with it up to a byte that
does not continue it or to the end. -/
theorem completes_or_stuck (p : Partial) (bytes : Bytes) :
    (∃ bs rest n, bytes = bs ++ rest ∧ Completes p bs n) ∨
      ∃ bs rest q, bytes = bs ++ rest ∧ GoesOn p bs q ∧ ∀ b ∈ rest.head?, ¬ q.Takes b := by
  induction bytes generalizing p with
  | nil => exact Or.inr ⟨[], [], p, rfl, .refl p, by simp⟩
  | cons b bytes ih =>
    by_cases hb : p.Takes b
    · cases hmore : p.more with
      | zero => exact Or.inl ⟨[b], bytes, _, rfl, .last hb hmore⟩
      | succ more =>
        rcases ih (p.next b more) with ⟨bs, rest, n, rfl, h⟩ | ⟨bs, rest, q, rfl, h, hstuck⟩
        · exact Or.inl ⟨b :: bs, rest, n, rfl, .next hb hmore h⟩
        · exact Or.inr ⟨b :: bs, rest, q, rfl, .next hb hmore h, hstuck⟩
    · exact Or.inr ⟨[], b :: bytes, p, rfl, .refl p, by simpa using hb⟩

/-- A sequence that is stuck is replaced, and what follows is read as if it stood alone. -/
theorem run_stuck {q : Partial} {rest : Bytes} (h : ∀ b ∈ rest.head?, ¬ q.Takes b) :
    run (some q) rest = replacement :: run none rest := by
  cases rest with
  | nil => rfl
  | cons b rest => exact run_of_refused (h b rfl) rest

/-! ## What bytes spell -/

/-- Whether the form of some character begins with some bytes. -/
def Begins (bytes : Bytes) : Prop := ∃ c, bytes <+: form c

/-- Where no form of a character stands, the bytes `part` in front of `rest` are taken together:
the longest ones that some form begins with, or else a single byte. -/
structure Broken (part rest : Bytes) : Prop where
  nonempty : part ≠ []
  noForm : ∀ c, ¬ form c <+: part ++ rest
  begins : Begins part ∨ part.length = 1
  longest : ∀ longer, longer <+: part ++ rest → part.length < longer.length → ¬ Begins longer

/-- The text that bytes spell: the form of a character spells the character, and bytes that are
broken spell one replacement character. -/
inductive Spells : Bytes → List Char → Prop where
  | nil : Spells [] []
  | char (c : Char) {rest : Bytes} {text : List Char} (h : Spells rest text) :
      Spells (form c ++ rest) (c :: text)
  | broken {part rest : Bytes} {text : List Char} (hpart : Broken part rest)
      (h : Spells rest text) : Spells (part ++ rest) (replacement :: text)

theorem decode_form_append (c : Char) (rest : Bytes) :
    decode (form c ++ rest) = c :: decode rest := by
  rcases exists_form c with ⟨a, hform, hstart, -⟩ | ⟨a, p, tail, hform, ha, h⟩
  · rw [hform, decode, List.singleton_append, run_cons, feed, hstart]
    rfl
  · rw [hform, decode, List.cons_append, run_cons, feed, ha.start_eq, List.nil_append,
      h.run_append, Char.ofNat_toNat]
    rfl

theorem form_ne_nil (c : Char) : form c ≠ [] := String.utf8EncodeChar_ne_nil

/-- Bytes begin with the form of one character at most. -/
theorem form_append_inj {c c' : Char} {rest rest' : Bytes}
    (h : form c ++ rest = form c' ++ rest') : c = c' ∧ rest = rest' := by
  have hdecode := congrArg decode h
  rw [decode_form_append, decode_form_append] at hdecode
  obtain ⟨rfl, -⟩ := List.cons.inj hdecode
  exact ⟨rfl, List.append_cancel_left h⟩

/-- Of two broken parts at the same place neither is longer. -/
theorem Broken.length_le {part part' rest rest' : Bytes} (h : Broken part rest)
    (h' : Broken part' rest') (heq : part ++ rest = part' ++ rest') :
    part'.length ≤ part.length := by
  apply Nat.le_of_not_lt
  intro hlt
  have hprefix : part' <+: part ++ rest := heq ▸ List.prefix_append part' rest'
  rcases h'.begins with hbegins | hone
  · exact h.longest part' hprefix hlt hbegins
  · have hpos := List.length_pos_iff.2 h.nonempty
    omega

/-- Bytes spell one text. -/
theorem Spells.unique {bytes : Bytes} {text text' : List Char} (h : Spells bytes text)
    (h' : Spells bytes text') : text = text' := by
  induction h generalizing text' with
  | nil =>
    generalize hbytes : ([] : Bytes) = bytes at h'
    cases h' with
    | nil => rfl
    | char c _ => exact absurd (List.append_eq_nil_iff.1 hbytes.symm).1 (form_ne_nil c)
    | broken hpart _ => exact absurd (List.append_eq_nil_iff.1 hbytes.symm).1 hpart.nonempty
  | @char c rest _ _ ih =>
    generalize hbytes : form c ++ rest = bytes at h'
    cases h' with
    | nil => exact absurd (List.append_eq_nil_iff.1 hbytes).1 (form_ne_nil c)
    | char c' hrest =>
      obtain ⟨rfl, rfl⟩ := form_append_inj hbytes
      rw [ih hrest]
    | broken hpart _ => exact absurd (hbytes ▸ List.prefix_append (form c) rest) (hpart.noForm c)
  | @broken part rest _ hpart _ ih =>
    generalize hbytes : part ++ rest = bytes at h'
    cases h' with
    | nil => exact absurd (List.append_eq_nil_iff.1 hbytes).1 hpart.nonempty
    | char c' _ => exact absurd (hbytes ▸ List.prefix_append (form c') _) (hpart.noForm c')
    | broken hpart' hrest =>
      obtain ⟨-, rfl⟩ := List.append_inj hbytes
        (Nat.le_antisymm (hpart'.length_le hpart hbytes.symm) (hpart.length_le hpart' hbytes))
      rw [ih hrest]

/-- A byte that begins no sequence begins no form. -/
theorem not_begins_of_refused {a : UInt8} (h : start a = ([replacement], none)) (bytes : Bytes) :
    ¬ Begins (a :: bytes) := by
  rintro ⟨c, hc⟩
  rcases exists_form c with ⟨a', hform, hstart, hne⟩ | ⟨a', p, tail, hform, ha', -⟩
  · rw [hform, List.cons_prefix_cons] at hc
    rw [← hc.1, h] at hstart
    have hc' : replacement = c := by simpa using hstart
    exact hne hc'.symm
  · rw [hform, List.cons_prefix_cons] at hc
    have hstart := ha'.start_eq
    rw [← hc.1, h] at hstart
    simp at hstart

theorem begins_form (c : Char) : Begins (form c) := ⟨c, List.prefix_rfl⟩

/-- A byte that begins no sequence is broken. -/
theorem broken_of_refused {a : UInt8} (h : start a = ([replacement], none)) (rest : Bytes) :
    Broken [a] rest := by
  have hnone : ∀ bytes, bytes ≠ [] → bytes <+: [a] ++ rest → ¬ Begins bytes := by
    intro bytes hne hprefix
    cases bytes with
    | nil => exact absurd rfl hne
    | cons b bytes =>
      obtain ⟨rfl, -⟩ := List.cons_prefix_cons.1 hprefix
      exact not_begins_of_refused h bytes
  refine ⟨by simp, ?_, Or.inr rfl, ?_⟩
  · intro c hprefix
    exact hnone (form c) (form_ne_nil c) hprefix (begins_form c)
  · intro longer hprefix hlen
    exact hnone longer (List.length_pos_iff.1 (by omega)) hprefix

/-- A form that begins with a sequence that goes on has bytes left to complete it. -/
theorem GoesOn.exists_of_form {a : UInt8} {p q : Partial} {bs after : Bytes} {c : Char}
    (ha : Opens a p) (h : GoesOn p bs q) (hform : form c = a :: bs ++ after) :
    ∃ b tail, after = b :: tail ∧ q.Takes b := by
  rcases exists_form c with ⟨a', hform', hstart, -⟩ | ⟨a', p', tail, hform', ha', hcomplete⟩
  · rw [hform'] at hform
    obtain ⟨rfl, -⟩ := List.cons.inj hform
    rw [ha.start_eq] at hstart
    simp at hstart
  · rw [hform', List.cons_append] at hform
    obtain ⟨rfl, rfl⟩ := List.cons.inj hform
    cases ha'.unique ha
    cases after with
    | nil =>
      have hlen := hcomplete.length_eq
      have hmore := h.more_eq
      rw [List.append_nil] at hlen
      omega
    | cons b tail => exact ⟨b, tail, rfl, h.takes_of_completes hcomplete⟩

/-- A sequence that is stuck is broken, up to the byte that does not continue it. -/
theorem broken_of_stuck {a : UInt8} {p q : Partial} {bs rest : Bytes} (ha : Opens a p)
    (h : GoesOn p bs q) (hstuck : ∀ b ∈ rest.head?, ¬ q.Takes b) : Broken (a :: bs) rest := by
  -- some form begins with the sequence, since it can be completed
  have hbegins : Begins (a :: bs) := by
    obtain ⟨tail, n, hq⟩ := exists_completes q.more q rfl (h.low_le_high ha.low_le_high)
    refine ⟨Char.ofNat n, tail, ?_⟩
    rw [form_of_completes ha (h.completes_append hq), List.cons_append]
  -- and none goes on beyond it, since its next byte would be taken
  have hlongest : ∀ longer, longer <+: a :: bs ++ rest → (a :: bs).length < longer.length →
      ¬ Begins longer := by
    rintro longer hlonger hlen ⟨c, tail, hform⟩
    obtain ⟨later, rfl⟩ : a :: bs <+: longer :=
      List.prefix_of_prefix_length_le (List.prefix_append _ rest) hlonger (Nat.le_of_lt hlen)
    rw [List.append_assoc] at hform
    obtain ⟨b, tail', htail, hb⟩ := h.exists_of_form ha hform.symm
    cases later with
    | nil => simp at hlen
    | cons b' later =>
      obtain ⟨rfl, -⟩ := List.cons.inj htail
      obtain ⟨after, hafter⟩ := (List.prefix_append_right_inj (a :: bs)).1 hlonger
      exact hstuck b' (by rw [← hafter]; rfl) hb
  refine ⟨by simp, ?_, Or.inl hbegins, hlongest⟩
  intro c hc
  by_cases hlen : (a :: bs).length < (form c).length
  · exact hlongest (form c) hc hlen (begins_form c)
  · -- a form within the sequence would be the form that begins with it
    obtain ⟨c', tail, hform⟩ := hbegins
    obtain ⟨later, hlater⟩ : form c <+: a :: bs :=
      List.prefix_of_prefix_length_le hc (List.prefix_append _ rest) (Nat.le_of_not_lt hlen)
    rw [← hlater, List.append_assoc, ← List.append_nil (form c')] at hform
    obtain ⟨-, hnil⟩ := form_append_inj hform
    have hwhole : form c = a :: bs ++ [] := by
      rw [← hlater, (List.append_eq_nil_iff.1 hnil).1, List.append_nil, List.append_nil]
    obtain ⟨b, tail', htail, -⟩ := h.exists_of_form ha hwhole
    cases htail

/-! ## The decoder and what bytes spell -/

/-- At the front of some bytes stands the form of a character or a broken part, and the decoder
reads it as such. -/
theorem decode_cons_cases (a : UInt8) (bytes : Bytes) :
    (∃ c rest, a :: bytes = form c ++ rest) ∨
      ∃ part rest, a :: bytes = part ++ rest ∧ Broken part rest ∧
        decode (a :: bytes) = replacement :: decode rest := by
  rcases start_cases a with ⟨x, hx, rfl⟩ | ⟨p, ha⟩ | hrefused
  · refine Or.inl ⟨Char.ofNat x, bytes, ?_⟩
    have hcode := toNat_ofNat (n := x) (by omega)
    rw [form_one (by omega), hcode]
    rfl
  · rcases completes_or_stuck p bytes with ⟨bs, rest, n, rfl, h⟩ | ⟨bs, rest, q, rfl, h, hstuck⟩
    · refine Or.inl ⟨Char.ofNat n, rest, ?_⟩
      rw [form_of_completes ha h]
      rfl
    · refine Or.inr ⟨a :: bs, rest, rfl, broken_of_stuck ha h hstuck, ?_⟩
      rw [decode, run_cons, feed, ha.start_eq, List.nil_append, h.run_append, run_stuck hstuck]
      rfl
  · refine Or.inr ⟨[a], bytes, rfl, broken_of_refused hrefused bytes, ?_⟩
    rw [decode, run_cons, feed, hrefused]
    rfl

/-- The decoder gives a text that the bytes spell. -/
theorem spells_decode (bytes : Bytes) : Spells bytes (decode bytes) := by
  -- by the length of the bytes, since a form or a broken part leaves fewer of them
  induction hlen : bytes.length using Nat.strongRecOn generalizing bytes with
  | _ length ih =>
    subst hlen
    cases bytes with
    | nil => exact .nil
    | cons a bytes =>
      rcases decode_cons_cases a bytes with ⟨c, rest, heq⟩ | ⟨part, rest, heq, hpart, hdecode⟩
      · have hpos := List.length_pos_iff.2 (form_ne_nil c)
        rw [heq, decode_form_append]
        refine .char c (ih rest.length ?_ rest rfl)
        rw [heq, List.length_append]
        omega
      · have hpos := List.length_pos_iff.2 hpart.nonempty
        rw [hdecode, heq]
        refine .broken hpart (ih rest.length ?_ rest rfl)
        rw [heq, List.length_append]
        omega

/-- **Decoding.**  Bytes are decoded to the one text that they spell. -/
theorem spells_iff (bytes : Bytes) (text : List Char) :
    Spells bytes text ↔ decode bytes = text := by
  constructor
  · intro h
    exact (spells_decode bytes).unique h
  · rintro rfl
    exact spells_decode bytes

end PrototypeOrder.Utf8
