/-
# Columns and the text they point at

A place has a column, which counts bytes, and a line, which is text.  The text of a node is decoded
from its own bytes, and the line from the bytes of its row.  They fit together: the column says how
many bytes of the row come before the text of the node in the line, whatever these bytes and those
after the node are.

* `Utf8.decode_append` : decoding can be cut where the bytes after the cut begin anew;
* `Lines.IsRowAt.column_eq` : the column of an offset is its distance from where its row begins;
* `Lines.IsRowAt.rest_eq` : the end of a row is the bytes of a node and what comes after them;
* `Node.Apart` : what is asked of a node.

The result is that the line of a node has the text of the node right after the text of the bytes
that the column counts.
-/
import PrototypeOrder.Proofs.Grounding
import PrototypeOrder.Proofs.Rows

namespace PrototypeOrder

/-- Decoding can be cut before bytes that do not begin with a continuation byte. -/
theorem Utf8.decode_append (xs : Bytes) {ys : Bytes}
    (h : ∀ b ∈ ys.head?, isContinuation b = false) :
    decode (xs ++ ys) = decode xs ++ decode ys := by
  cases ys with
  | nil =>
    rw [List.append_nil]
    exact (List.append_nil _).symm
  | cons b ys => exact decode_append_cons xs ys (h b rfl)

namespace Lines

variable {bytes before row after : Bytes} {offset start stop : Nat}

/-! ## Offsets in a row -/

/-- What comes from an offset on is the end of its row and what comes after its row. -/
theorem IsRowAt.drop_eq (h : IsRowAt bytes offset before row after) :
    bytes.drop offset = row.drop (offset - before.length) ++ after := by
  have hle := h.le_offset
  have hle' := h.offset_le
  rw [h.whole, List.append_assoc, List.drop_append, List.drop_of_length_le hle, List.nil_append,
    List.drop_append_of_le_length (by omega)]

/-- The first byte of the end of a row is the byte at the offset. -/
theorem IsRowAt.getElem?_of_head? (h : IsRowAt bytes offset before row after) {b : UInt8}
    (hb : b ∈ (row.drop (offset - before.length)).head?) : bytes[offset]? = some b := by
  rw [← List.head?_drop, h.drop_eq, List.head?_append, Option.mem_def.1 hb]
  rfl

/-- The column of an offset is its distance from where its row begins. -/
theorem IsRowAt.column_eq (h : IsRowAt bytes offset before row after) :
    (Point.ofOffset bytes offset).column = (offset - before.length : Nat) := by
  have hle := h.offset_le
  have hrow : ∀ b ∈ (row.take (offset - before.length)).reverse,
      decide (b ≠ newlineByte) = true := by
    intro b hb
    rw [List.mem_reverse] at hb
    exact decide_eq_true fun hnewline => h.noNewline (hnewline ▸ List.mem_of_mem_take hb)
  -- the bytes before the row end with a newline, where the count stops
  have hbefore : before.reverse.takeWhile (fun b => decide (b ≠ newlineByte)) = [] := by
    rcases h.begins with rfl | ⟨earlier, rfl⟩
    · rfl
    · rw [List.reverse_concat]
      rfl
  show (((bytes.take offset).reverse.takeWhile _).length : Int) = _
  rw [h.take_eq, List.reverse_append, List.takeWhile_append_of_pos hrow, hbefore, List.append_nil,
    List.length_reverse, List.length_take, Nat.min_eq_left (by omega)]

/-- Bytes without a newline do not go beyond the row in which they begin. -/
theorem IsRowAt.stop_le (h : IsRowAt bytes start before row after) (hstop : stop ≤ bytes.length)
    (hslice : newlineByte ∉ (bytes.drop start).take (stop - start)) :
    stop ≤ before.length + row.length := by
  have hle := h.le_offset
  have hle' := h.offset_le
  rw [h.drop_eq] at hslice
  rcases h.ends with rfl | ⟨later, rfl⟩
  · rw [h.whole, List.length_append, List.length_append, List.length_nil] at hstop
    omega
  · -- otherwise the newline that ends the row would be among the bytes
    apply Nat.le_of_not_lt
    intro hlt
    have hlength := List.length_drop (l := row) (i := start - before.length)
    obtain ⟨k, hk⟩ : ∃ k, stop - start - (row.drop (start - before.length)).length = k + 1 :=
      ⟨stop - (before.length + row.length) - 1, by omega⟩
    apply hslice
    rw [List.take_append, hk, List.take_succ_cons]
    exact List.mem_append_right _ List.mem_cons_self

/-- The end of a row is some bytes in it and what comes after them. -/
theorem IsRowAt.rest_eq (h : IsRowAt bytes start before row after) (hle : start ≤ stop)
    (hstop : stop ≤ before.length + row.length) :
    row.drop (start - before.length) =
      (bytes.drop start).take (stop - start) ++ row.drop (stop - before.length) := by
  have hbefore := h.le_offset
  have hlength : stop - start ≤ (row.drop (start - before.length)).length := by
    rw [List.length_drop]
    omega
  have hdrop : row.drop (stop - before.length) =
      (row.drop (start - before.length)).drop (stop - start) := by
    rw [List.drop_drop]
    congr 1
    omega
  rw [h.drop_eq, List.take_append_of_le_length hlength, hdrop, List.take_append_drop]

/-- The text of a row is cut where some bytes in it begin and where they end, unless a character
goes on there. -/
theorem IsRowAt.decode_eq (h : IsRowAt bytes start before row after) (hle : start ≤ stop)
    (hstop : stop ≤ before.length + row.length)
    (hbegins : ∀ b ∈ bytes[start]?, Utf8.isContinuation b = false)
    (hends : ∀ b ∈ bytes[stop]?, Utf8.isContinuation b = false) :
    Utf8.decode row =
      Utf8.decode (row.take (start - before.length)) ++
        Utf8.decode ((bytes.drop start).take (stop - start)) ++
        Utf8.decode (row.drop (stop - before.length)) := by
  have hbefore := h.le_offset
  have h' : IsRowAt bytes stop before row after :=
    { h with le_offset := by omega, offset_le := hstop }
  have hcut : ∀ b ∈ (row.drop (start - before.length)).head?, Utf8.isContinuation b = false :=
    fun b hb => hbegins b (h.getElem?_of_head? hb)
  have hcut' : ∀ b ∈ (row.drop (stop - before.length)).head?, Utf8.isContinuation b = false :=
    fun b hb => hends b (h'.getElem?_of_head? hb)
  calc Utf8.decode row
      = Utf8.decode (row.take (start - before.length) ++ row.drop (start - before.length)) := by
        rw [List.take_append_drop]
    _ = Utf8.decode (row.take (start - before.length)) ++
          Utf8.decode (row.drop (start - before.length)) := Utf8.decode_append _ hcut
    _ = _ := by rw [h.rest_eq hle hstop, Utf8.decode_append _ hcut', List.append_assoc]

end Lines

/-! ## Nodes -/

/-- A node stands apart in a file if it lies in one row of it, neither its first byte nor the byte
after it goes on with a character, and its point is that of its first byte. -/
structure Node.Apart (file : Bytes) (n : Node) : Prop where
  span : n.tag.start ≤ n.tag.stop
  within : n.tag.stop ≤ file.length
  oneRow : newlineByte ∉ n.bytes file
  begins : ∀ b ∈ file[n.tag.start]?, Utf8.isContinuation b = false
  ends : ∀ b ∈ file[n.tag.stop]?, Utf8.isContinuation b = false
  point : n.tag.point = Point.ofOffset file n.tag.start

namespace SourceFile

/-- A place marks the text `text` of the bytes from `start` to `stop` of a file.  It has the row in
which they begin, and its column is the number of bytes of this row before them.  The row of the
text with this number is the text of these bytes, `text`, and the text of the bytes of the row from
`stop` on; and the line of the place shows it. -/
def Marks (f : SourceFile) (l : Location) (start stop : Nat) (text : String) : Prop :=
  ∃ (before row after : Bytes) (r column : Nat),
    Lines.IsRowAt f.bytes start before row after ∧ start = before.length + column ∧
    l.row = r ∧ l.column = column ∧ (split newlineByte f.bytes)[r]? = some row ∧
    let shown := Utf8.decode (row.take column) ++ text.toList ++
      Utf8.decode (row.drop (stop - before.length))
    f.rows[r]? = some shown ∧ Lines.Shows shown l.lineText

/-- The place of a node that stands apart marks the text of the node. -/
theorem marks_location (f : SourceFile) {n : Node} (h : n.Apart f.bytes) :
    f.Marks (f.location n) n.tag.start n.tag.stop (n.text f.bytes) := by
  obtain ⟨before, row, after, hrow⟩ := Lines.exists_isRowAt (Nat.le_trans h.span h.within)
  have hbefore := hrow.le_offset
  have hindex := hrow.getElem?_split
  have htext : (n.text f.bytes).toList = Utf8.decode (n.bytes f.bytes) := String.toList_ofList
  have hdecode : Utf8.decode row = Utf8.decode (row.take (n.tag.start - before.length)) ++
      (n.text f.bytes).toList ++ Utf8.decode (row.drop (n.tag.stop - before.length)) := by
    rw [htext]
    exact hrow.decode_eq h.span (hrow.stop_le h.within h.oneRow) h.begins h.ends
  have hline : f.rows[(f.bytes.take n.tag.start).count newlineByte]? = some (Utf8.decode row) := by
    rw [rows, Lines.ofBytes_eq, List.getElem?_map, hindex, Option.map_some]
  refine ⟨before, row, after, (f.bytes.take n.tag.start).count newlineByte,
    n.tag.start - before.length, hrow, by omega, ?_, ?_, hindex, ?_, ?_⟩
  · show n.tag.point.row = _
    rw [h.point]
    rfl
  · show n.tag.point.column = _
    rw [h.point, hrow.column_eq]
  · rw [hline, hdecode]
  · rw [← hdecode]
    show Lines.Shows _ (Lines.lineAt f.rows n.tag.point.row)
    rw [h.point]
    exact Lines.shows_lineAt hline

end SourceFile

/-- **The column points at the text.**  The place of a node that stands apart marks the text of the
node: in its line, the text comes right after the text of the bytes that the column counts.  So the
place of an item marks the name of the item, if the identifier that names it stands apart. -/
theorem column_points_at_text (f : SourceFile) :
    (∀ n : Node, n.Apart f.bytes →
      f.Marks (f.location n) n.tag.start n.tag.stop (n.text f.bytes)) ∧
    ∀ i ∈ f.items, ∃ n ident, f.Reads i n ident ∧
      (ident.Apart f.bytes → f.Marks i.location ident.tag.start ident.tag.stop i.name) := by
  constructor
  · intro n hn
    exact f.marks_location hn
  · intro i hi
    obtain ⟨n, ident, hreads⟩ := (f.mem_items_iff i).1 hi
    refine ⟨n, ident, hreads, ?_⟩
    intro hident
    rw [hreads.location, hreads.name]
    exact f.marks_location hident

/-- A row that begins with a character of two bytes, so that the column of the name `ab` is not the
number of characters before it, and that ends inside a character and with a carriage return. -/
theorem column_points_at_text_truncated :
    let bytes : Bytes :=
      [0x78, 0x0A, 0xC3, 0xA9, 0x20, 0x61, 0x62, 0x28, 0x29, 0x3B, 0xE2, 0x82, 0x0D]
    let node (kind : String) (start stop : Nat) (field : Option String) : List Node → Node :=
      .mk ⟨kind, start, stop, Point.ofOffset bytes start, field, false, false, false⟩
    let ident := node "identifier" 5 7 (some "declarator") []
    let f : SourceFile := ⟨"f.h", bytes,
      node "declaration" 2 10 none [node "function_declarator" 5 9 (some "declarator") [ident]]⟩
    ident.Apart bytes ∧ f.items.map Item.name = ["ab"] ∧
      (f.location ident).column = 3 ∧ (f.location ident).lineText = "\u00E9 ab();\uFFFD" ∧
      f.Marks (f.location ident) 5 7 "ab" := by
  intro bytes node ident f
  have hident : ident.Apart bytes :=
    ⟨by decide, by decide, by decide, by simp [bytes, ident, node, Utf8.isContinuation],
      by simp [bytes, ident, node, Utf8.isContinuation], rfl⟩
  have htext : ident.text bytes = "ab" := by decide
  refine ⟨hident, by decide +kernel, by decide, by decide +kernel, ?_⟩
  rw [← htext]
  exact (column_points_at_text f).1 ident hident

end PrototypeOrder
