/-
# Rows of bytes and rows of text

A place counts newlines in the bytes of a file, and the line that is shown is cut from the text.
The two agree: no newline of the text is made up by the decoder, none is lost in a sequence that
is broken before it, and what stands in one row does not change how another row is read.

* `Lines.ofBytes_eq` : the rows of the text are the rows of the bytes, each decoded alone;
* `Lines.IsRowAt.getElem?_split` : the row of an offset has as its index the number of
  newlines before the offset;
* `Lines.shows_trimReturns` : what a line shows of a row.

The result is that every place in a file comes with the line of bytes that it lies in.
-/
import PrototypeOrder.Source.File
import PrototypeOrder.Proofs.Decoding
import PrototypeOrder.Proofs.PathNames

namespace PrototypeOrder

/-! ## Newlines -/

namespace Utf8

/-- The form of a newline is the newline byte. -/
theorem form_newline : form '\n' = [newlineByte] := by decide

/-- A newline of the text comes from a newline byte. -/
theorem Spells.newline_mem {bytes : Bytes} {text : List Char} (h : Spells bytes text)
    (hmem : '\n' ∈ text) : newlineByte ∈ bytes := by
  induction h with
  | nil => cases hmem
  | char c _ ih =>
    rcases List.mem_cons.1 hmem with rfl | hmem
    · rw [form_newline]
      exact List.mem_cons_self
    · exact List.mem_append_right _ (ih hmem)
  | broken _ _ ih =>
    rcases List.mem_cons.1 hmem with hreplacement | hmem
    · exact absurd hreplacement (by decide)
    · exact List.mem_append_right _ (ih hmem)

/-- A newline byte is a newline of the text, whatever stands before it. -/
theorem decode_append_newline (xs ys : Bytes) :
    decode (xs ++ newlineByte :: ys) = decode xs ++ '\n' :: decode ys := by
  have hcut : isContinuation newlineByte = false := by decide
  have hform : newlineByte :: ys = form '\n' ++ ys := by rw [form_newline]; rfl
  rw [decode_append_cons xs ys hcut, hform, decode_form_append]

end Utf8

namespace Lines

/-- **Rows of the text.**  They are the rows of the bytes, each decoded alone. -/
theorem ofBytes_eq (bytes : Bytes) :
    ofBytes bytes = (split newlineByte bytes).map Utf8.decode := by
  -- by the length of the bytes, which are cut at their first newline
  induction hlen : bytes.length using Nat.strongRecOn generalizing bytes with
  | _ length ih =>
    subst hlen
    by_cases hmem : newlineByte ∈ bytes
    · obtain ⟨xs, ys, rfl, hxs⟩ := List.eq_append_cons_of_mem hmem
      have hrest := ih ys.length (by simp; omega) ys rfl
      have hfirst : '\n' ∉ Utf8.decode xs :=
        fun h => hxs ((Utf8.spells_decode xs).newline_mem h)
      rw [ofBytes] at hrest ⊢
      rw [Utf8.decode_append_newline, split_append_cons, split_append_cons, hrest,
        split_of_notMem hfirst, split_of_notMem hxs, List.map_append, List.map_singleton]
    · have hnone : '\n' ∉ Utf8.decode bytes :=
        fun h => hmem ((Utf8.spells_decode bytes).newline_mem h)
      rw [ofBytes, split_of_notMem hnone, split_of_notMem hmem, List.map_singleton]

/-- There is one row more than there are newlines among the bytes. -/
theorem length_ofBytes (bytes : Bytes) : (ofBytes bytes).length = bytes.count newlineByte + 1 := by
  rw [ofBytes_eq, List.length_map, length_split]

/-! ## The row of an offset -/

/-- An offset lies in the bytes `row` between `before` and `after`: they have no newline, come after
a newline or at the beginning, and go up to a newline or to the end.  An offset at a newline lies
in the row that it ends. -/
structure IsRowAt (bytes : Bytes) (offset : Nat) (before row after : Bytes) : Prop where
  whole : bytes = before ++ row ++ after
  noNewline : newlineByte ∉ row
  begins : before = [] ∨ ∃ earlier, before = earlier ++ [newlineByte]
  ends : after = [] ∨ ∃ later, after = newlineByte :: later
  le_offset : before.length ≤ offset
  offset_le : offset ≤ before.length + row.length

/-- The bytes after the last newline. -/
theorem exists_last_row (bytes : Bytes) :
    ∃ before row, bytes = before ++ row ∧ newlineByte ∉ row ∧
      (before = [] ∨ ∃ earlier, before = earlier ++ [newlineByte]) := by
  induction bytes with
  | nil => exact ⟨[], [], rfl, by simp, Or.inl rfl⟩
  | cons b bytes ih =>
    obtain ⟨before, row, rfl, hrow, rfl | ⟨earlier, rfl⟩⟩ := ih
    · by_cases hb : newlineByte = b
      · exact ⟨[b], row, rfl, hrow, Or.inr ⟨[], by rw [hb]; rfl⟩⟩
      · refine ⟨[], b :: row, rfl, ?_, Or.inl rfl⟩
        rw [List.mem_cons, not_or]
        exact ⟨hb, hrow⟩
    · exact ⟨b :: (earlier ++ [newlineByte]), row, rfl, hrow, Or.inr ⟨b :: earlier, rfl⟩⟩

/-- The bytes before the first newline. -/
theorem exists_first_row (bytes : Bytes) :
    ∃ row after, bytes = row ++ after ∧ newlineByte ∉ row ∧
      (after = [] ∨ ∃ later, after = newlineByte :: later) := by
  by_cases hmem : newlineByte ∈ bytes
  · obtain ⟨row, later, hbytes, hrow⟩ := List.eq_append_cons_of_mem hmem
    exact ⟨row, _, hbytes, hrow, Or.inr ⟨later, rfl⟩⟩
  · exact ⟨bytes, [], by simp, hmem, Or.inl rfl⟩

/-- Every offset lies in a row. -/
theorem exists_isRowAt {bytes : Bytes} {offset : Nat} (h : offset ≤ bytes.length) :
    ∃ before row after, IsRowAt bytes offset before row after := by
  obtain ⟨before, left, hleft, hleft', hbegins⟩ := exists_last_row (bytes.take offset)
  obtain ⟨right, after, hright, hright', hends⟩ := exists_first_row (bytes.drop offset)
  have hlen : before.length + left.length = offset := by
    rw [← List.length_append, ← hleft, List.length_take, Nat.min_eq_left h]
  refine ⟨before, left ++ right, after, ?_, ?_, hbegins, hends, by omega, ?_⟩
  · calc bytes = bytes.take offset ++ bytes.drop offset := (List.take_append_drop offset bytes).symm
      _ = before ++ left ++ (right ++ after) := by rw [hleft, hright]
      _ = before ++ (left ++ right) ++ after := by simp only [List.append_assoc]
  · rw [List.mem_append, not_or]
    exact ⟨hleft', hright'⟩
  · rw [List.length_append]
    omega

/-- A row in front of what follows it is the first part. -/
theorem IsRowAt.getElem?_zero {bytes before row after : Bytes} {offset : Nat}
    (h : IsRowAt bytes offset before row after) :
    (split newlineByte (row ++ after))[0]? = some row := by
  rcases h.ends with rfl | ⟨later, rfl⟩
  · rw [List.append_nil, split_of_notMem h.noNewline]
    rfl
  · rw [split_append_cons, split_of_notMem h.noNewline]
    rfl

/-- What comes before an offset is what comes before its row and the beginning of the row. -/
theorem IsRowAt.take_eq {bytes before row after : Bytes} {offset : Nat}
    (h : IsRowAt bytes offset before row after) :
    bytes.take offset = before ++ row.take (offset - before.length) := by
  have hle := h.le_offset
  have hle' := h.offset_le
  rw [h.whole, List.append_assoc, List.take_append, List.take_of_length_le hle,
    List.take_append_of_le_length (by omega)]

/-- The newlines before an offset are those before its row. -/
theorem IsRowAt.count_take {bytes before row after : Bytes} {offset : Nat}
    (h : IsRowAt bytes offset before row after) :
    (bytes.take offset).count newlineByte = before.count newlineByte := by
  have hnone : newlineByte ∉ row.take (offset - before.length) :=
    fun hmem => h.noNewline (List.mem_of_mem_take hmem)
  rw [h.take_eq, List.count_append, List.count_eq_zero_of_not_mem hnone, Nat.add_zero]

/-- The row that an offset lies in has as its index the number of newlines before the offset. -/
theorem IsRowAt.getElem?_split {bytes before row after : Bytes} {offset : Nat}
    (h : IsRowAt bytes offset before row after) :
    (split newlineByte bytes)[(bytes.take offset).count newlineByte]? = some row := by
  have hfirst := h.getElem?_zero
  rw [h.count_take, h.whole, List.append_assoc]
  rcases h.begins with rfl | ⟨earlier, rfl⟩
  · exact hfirst
  · have hlen : (split newlineByte earlier).length =
        (earlier ++ [newlineByte]).count newlineByte := by
      rw [length_split, List.count_append, List.count_singleton_self]
    rw [List.append_assoc, List.singleton_append, split_append_cons,
      List.getElem?_append_right (Nat.le_of_eq hlen), hlen, Nat.sub_self]
    exact hfirst

/-! ## Lines -/

/-- A line shows a row without the carriage returns at its end, and nothing else is missing. -/
def Shows (row : List Char) (line : String) : Prop :=
  (∃ returns, row = line.toList ++ List.replicate returns '\r') ∧
    line.toList.getLast? ≠ some '\r'

theorem shows_trimReturns (row : List Char) : Shows row (String.ofList (trimReturns row)) := by
  have hreturns : row.reverse.takeWhile (· = '\r') =
      List.replicate (row.reverse.takeWhile (· = '\r')).length '\r' := by
    rw [List.eq_replicate_iff]
    refine ⟨rfl, ?_⟩
    intro c hc
    have hall := List.all_takeWhile (l := row.reverse) (p := fun c => decide (c = '\r'))
    simpa using List.all_eq_true.1 hall c hc
  rw [Shows, String.toList_ofList]
  constructor
  · refine ⟨(row.reverse.takeWhile (· = '\r')).length, ?_⟩
    calc row = row.reverse.reverse := (List.reverse_reverse row).symm
      _ = (row.reverse.takeWhile (· = '\r') ++ row.reverse.dropWhile (· = '\r')).reverse := by
        rw [List.takeWhile_append_dropWhile]
      _ = trimReturns row ++ (row.reverse.takeWhile (· = '\r')).reverse := by
        rw [List.reverse_append, trimReturns]
      _ = trimReturns row ++ List.replicate _ '\r' := by
        rw [hreturns, List.reverse_replicate, List.length_replicate]
  · rw [trimReturns, List.getLast?_reverse]
    intro hlast
    have hnot := List.head?_dropWhile_not (fun c => decide (c = '\r')) row.reverse
    rw [hlast] at hnot
    simp at hnot

/-- The line of a row of the text shows that row. -/
theorem shows_lineAt {rows : List (List Char)} {r : Nat} {row : List Char}
    (h : rows[r]? = some row) : Shows row (lineAt rows r) := by
  have hline : lineAt rows r = String.ofList (trimReturns row) := by
    show String.ofList (trimReturns (rows.getD r [])) = _
    rw [List.getD_eq_getElem?_getD, h, Option.getD_some]
  rw [hline]
  exact shows_trimReturns row

end Lines

/-- **Rows and lines agree.**  Bytes are decoded to the one text that they spell, with one
replacement character for each broken part.  The rows of a file are one more than its newline
bytes, each is the decoded row of bytes with its index, and its line is that text without the
carriage returns at its end.

So a node that gives as its row the number of newline bytes before it is within the rows of the
file, and the line shown for it is the decoded row of bytes that it begins in.  A node that begins
beyond the end of the file counts as one at the end. -/
theorem rows_and_lines_agree (f : SourceFile) :
    (∀ bytes text, Utf8.Spells bytes text ↔ Utf8.decode bytes = text) ∧
    f.rows.length = f.bytes.count newlineByte + 1 ∧
    (∀ r, r < f.rows.length → ∃ row,
      (split newlineByte f.bytes)[r]? = some row ∧ f.rows[r]? = some (Utf8.decode row) ∧
        Lines.Shows (Utf8.decode row) (Lines.lineAt f.rows r)) ∧
    (∀ n : Node, n.tag.point.row = (f.bytes.take n.tag.start).count newlineByte →
      (0 ≤ n.tag.point.row ∧ n.tag.point.row < f.rows.length) ∧
        ∃ before row after,
          Lines.IsRowAt f.bytes (min n.tag.start f.bytes.length) before row after ∧
            Lines.Shows (Utf8.decode row) (f.location n).lineText) := by
  have hrow : ∀ (r : Nat) row, (split newlineByte f.bytes)[r]? = some row →
      f.rows[r]? = some (Utf8.decode row) := by
    intro r row h
    rw [SourceFile.rows, Lines.ofBytes_eq, List.getElem?_map, h, Option.map_some]
  have hlength : f.rows.length = (split newlineByte f.bytes).length := by
    rw [SourceFile.rows, Lines.ofBytes_eq, List.length_map]
  refine ⟨Utf8.spells_iff, Lines.length_ofBytes f.bytes, ?_, ?_⟩
  · intro r hr
    rw [hlength] at hr
    have h := List.getElem?_eq_getElem hr
    exact ⟨_, h, hrow r _ h, Lines.shows_lineAt (hrow r _ h)⟩
  · intro n hn
    obtain ⟨before, row, after, h⟩ :=
      Lines.exists_isRowAt (Nat.min_le_right n.tag.start f.bytes.length)
    have hindex := h.getElem?_split
    rw [← List.take_eq_take_min] at hindex
    have hline := hrow _ row hindex
    refine ⟨⟨?_, ?_⟩, before, row, after, h, ?_⟩
    · rw [hn]
      exact Int.natCast_nonneg _
    · rw [hn]
      exact Int.ofNat_lt.2 (List.getElem?_eq_some_iff.1 hline).1
    · show Lines.Shows (Utf8.decode row) (Lines.lineAt f.rows n.tag.point.row)
      rw [hn]
      exact Lines.shows_lineAt hline

/-- Two rows of bytes, the first of which ends inside a sequence of three bytes and the second
inside one of four: neither takes in what follows it.  The node at the beginning of the second row
is shown with that row. -/
theorem rows_and_lines_agree_truncated :
    let n : Node := .mk ⟨"identifier", 3, 4, ⟨1, 0⟩, none, false, false, false⟩ []
    let f : SourceFile := ⟨"f.h", [0xE2, 0x82, 0x0A, 0x61, 0xF0, 0x9F, 0x0D], n⟩
    1 < f.rows.length ∧ f.rows[1]? = some (Utf8.decode [0x61, 0xF0, 0x9F, 0x0D]) ∧
      n.tag.point.row = (f.bytes.take n.tag.start).count newlineByte ∧
      (∃ before row after, Lines.IsRowAt f.bytes (min n.tag.start f.bytes.length) before row after ∧
        Lines.Shows (Utf8.decode row) (f.location n).lineText) ∧
      (f.location n).lineText = "a\uFFFD" := by
  intro n f
  obtain ⟨-, -, hrows, hnodes⟩ := rows_and_lines_agree f
  have hlt : 1 < f.rows.length := by decide
  have hn : n.tag.point.row = (f.bytes.take n.tag.start).count newlineByte := by decide
  obtain ⟨row, hrow, htext, -⟩ := hrows 1 hlt
  have hbytes : some [0x61, 0xF0, 0x9F, 0x0D] = some row := by
    rw [← hrow]
    decide
  rw [Option.some.injEq] at hbytes
  exact ⟨hlt, by rw [hbytes]; exact htext, hn, (hnodes n hn).2, by decide⟩

end PrototypeOrder
