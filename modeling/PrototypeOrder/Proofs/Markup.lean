/-
# Marked texts

A diagnostic is put together from marked texts: pieces are appended one by one, and the parts are
joined with a separator between each two, which moves the marks of a part behind what stands
before it.  What results has the text of the pieces and, as its marks, their spans.

* `Diagnostic.spans_append` : the spans of pieces one after the other;
* `Diagnostic.Markup.append_styled`, `Diagnostic.Markup.join_eq` : appending and joining, told in
  pieces;
* `Diagnostic.render_eq` : what is put together for a violation.
-/
import Mathlib.Data.List.Forall2
import PrototypeOrder.Proofs.DiagnosticText

namespace PrototypeOrder

namespace Diagnostic

/-! ## Marked texts -/

/-- A span further to the right. -/
def Span.shift (offset : Nat) (s : Span) : Span := ⟨offset + s.start, offset + s.stop, s.style⟩

/-- A text with marked stretches; `style` is the style of the text as a whole. -/
structure Markup where
  chars : List Char
  style : String
  spans : List Span
deriving DecidableEq, Repr

namespace Markup

/-- A text of one style. -/
def ofText (text style : String) : Markup := ⟨written text, style, []⟩

/-- A text after another, marked if its style is not empty. -/
def append (m : Markup) (text style : String) : Markup :=
  if text = "" then m
  else
    let stop := m.chars.length + (written text).length
    ⟨m.chars ++ written text, m.style,
      m.spans ++ if style = "" then [] else [⟨m.chars.length, stop, style⟩]⟩

/-- The marked stretches of a text as a part of another: the whole text, if it has a style, and
those inside of it. -/
def marks (m : Markup) : List Span :=
  (if m.style = "" then [] else [⟨0, m.chars.length, m.style⟩]) ++ m.spans

/-- A marked text after another. -/
def extend (m part : Markup) : Markup :=
  ⟨m.chars ++ part.chars, m.style, m.spans ++ part.marks.map (Span.shift m.chars.length)⟩

/-- Marked texts one after the other, with a separator between each two. -/
def join (sep : Markup) (parts : List Markup) : Markup :=
  (parts.intersperse sep).foldl extend ⟨[], sep.style, []⟩

end Markup

/-- The message of a violation as a marked text. -/
def renderMessage (style : Style) (message : String) : Markup :=
  (((Markup.ofText "" "").append "error:" style.error).append " " "").append message style.message

/-- A place as a marked text. -/
def renderLocation (style : Style) (l : Location) : Markup :=
  let number := toString l.line
  let pad := String.ofList (List.replicate number.length ' ')
  let place := ((Markup.ofText "" "").append l.label style.location).append "\n" ""
  let above := (place.append (pad ++ " |") style.gutter).append "\n" ""
  let line := (above.append (number ++ " |") style.gutter).append (" " ++ l.lineText) ""
  (line.append "\n" "").append (pad ++ " |") style.gutter

/-- A violation as a marked text. -/
def render (style : Style) (v : Violation) : Markup :=
  let file := v.file?.toList.map fun f => Markup.ofText f style.location
  let blocks := v.locations.map (renderLocation style)
  let places := if blocks = [] then [] else [(Markup.ofText "\n\n" "").join blocks]
  (Markup.ofText "\n" "").join (renderMessage style v.message :: (file ++ places))

/-! ## Spans of pieces -/

section Spans

variable (style : Style)

theorem chars_cons (p : Piece) (ps : List Piece) : chars (p :: ps) = written p.text ++ chars ps :=
  List.flatMap_cons

theorem spansFrom_append (start : Nat) (ps qs : List Piece) :
    spansFrom style start (ps ++ qs) =
      spansFrom style start ps ++ spansFrom style (start + (chars ps).length) qs := by
  induction ps generalizing start with
  | nil => rfl
  | cons p ps ih =>
    rw [List.cons_append, spansFrom, spansFrom, chars_cons, List.length_append, ← Nat.add_assoc]
    cases style.ofPiece p with
    | none => exact ih _
    | some s => exact congrArg _ (ih _)

/-- Spans move with the place where the pieces begin. -/
theorem spansFrom_shift (offset start : Nat) (ps : List Piece) :
    spansFrom style (offset + start) ps = (spansFrom style start ps).map (Span.shift offset) := by
  induction ps generalizing start with
  | nil => rfl
  | cons p ps ih =>
    rw [spansFrom, spansFrom, Nat.add_assoc, ih]
    cases style.ofPiece p with
    | none => rfl
    | some s => rfl

theorem spans_append (ps qs : List Piece) :
    spans style (ps ++ qs) =
      spans style ps ++ (spans style qs).map (Span.shift (chars ps).length) := by
  rw [spans, spansFrom_append, spans, spans, Nat.zero_add, ← spansFrom_shift, Nat.add_zero]

/-- Pieces as a marked text. -/
def Markup.ofPieces (ps : List Piece) : Markup :=
  ⟨Diagnostic.chars ps, "", Diagnostic.spans style ps⟩

/-- A marked text shows pieces if it has their text and, as a part of another, their spans. -/
structure Markup.Shows (m : Markup) (ps : List Piece) : Prop where
  chars : m.chars = Diagnostic.chars ps
  marks : m.marks = Diagnostic.spans style ps

namespace Markup

theorem shows_ofPieces (ps : List Piece) : (ofPieces style ps).Shows style ps :=
  ⟨rfl, List.nil_append _⟩

/-- A text shows a piece that is marked with the style of the text, if there is one. -/
theorem shows_piece {p : Piece} {name : String}
    (h : style.ofPiece p = if name = "" then none else some name) :
    (ofText p.text name).Shows style [p] := by
  refine ⟨(List.append_nil _).symm, ?_⟩
  rw [marks, ofText, Diagnostic.spans, spansFrom, h, Nat.zero_add]
  by_cases hname : name = ""
  · rw [if_pos hname, if_pos hname]
    rfl
  · rw [if_neg hname, if_neg hname]
    rfl

/-- A file is marked also if there is no name in it. -/
theorem shows_file (file : String) : (ofText file style.location).Shows style (ofFile file) := by
  refine shows_piece style (p := ⟨some .location, file, true⟩) ?_
  by_cases h : style.location = ""
  · simp [Style.ofPiece, Style.ofRole, h]
  · simp [Style.ofPiece, Style.ofRole, h]

theorem extend_ofPieces (ps : List Piece) {part : Markup} {qs : List Piece}
    (h : part.Shows style qs) : (ofPieces style ps).extend part = ofPieces style (ps ++ qs) := by
  simp only [extend, ofPieces, h.chars, h.marks, chars_append, spans_append]

/-- To append a text is to extend by it; nothing happens if it is empty. -/
theorem append_eq_extend (m : Markup) (text name : String) :
    m.append text name = m.extend (ofText text (if text = "" then "" else name)) := by
  by_cases htext : text = ""
  · rw [append, if_pos htext, if_pos htext, htext]
    simp [extend, ofText, written, marks]
  · rw [append, if_neg htext, if_neg htext, extend, marks, ofText]
    by_cases hname : name = ""
    · simp [hname]
    · simp [hname, Span.shift]

theorem append_styled (ps : List Piece) (role : Role) (text : String) :
    (ofPieces style ps).append text (style.ofRole role) =
      ofPieces style (ps ++ [styled role text]) := by
  rw [append_eq_extend]
  refine extend_ofPieces style ps (shows_piece style (p := styled role text) ?_)
  by_cases htext : text = ""
  · simp [Style.ofPiece, styled, htext]
  · by_cases hrole : style.ofRole role = ""
    · simp [Style.ofPiece, styled, htext, hrole]
    · simp [Style.ofPiece, styled, htext, hrole]

theorem append_bare (ps : List Piece) (text : String) :
    (ofPieces style ps).append text "" = ofPieces style (ps ++ [bare text]) := by
  rw [append_eq_extend, ite_self]
  exact extend_ofPieces style ps (shows_piece style (p := bare text) rfl)

/-- Marked texts one after the other show the pieces one after the other. -/
theorem foldl_extend (ps : List Piece) {parts : List Markup} {pieces : List (List Piece)}
    (h : List.Forall₂ (Shows style) parts pieces) :
    parts.foldl extend (ofPieces style ps) = ofPieces style (ps ++ pieces.flatten) := by
  induction h generalizing ps with
  | nil => simp
  | cons hpart _ ih =>
    rw [List.foldl_cons, extend_ofPieces style ps hpart, ih, List.flatten_cons, List.append_assoc]

theorem forall₂_intersperse {α β : Type} {R : α → β → Prop} {a : α} {b : β} (hsep : R a b)
    {xs : List α} {ys : List β} (h : List.Forall₂ R xs ys) :
    List.Forall₂ R (xs.intersperse a) (ys.intersperse b) := by
  induction h with
  | nil => exact .nil
  | cons hx hrest ih =>
    cases hrest with
    | nil => exact .cons hx .nil
    | cons hy hrest => exact .cons hx (.cons hsep ih)

/-- Joined texts show the pieces with the separator between each two. -/
theorem join_eq (sep : String) {parts : List Markup} {pieces : List (List Piece)}
    (h : List.Forall₂ (Shows style) parts pieces) :
    (ofText sep "").join parts = ofPieces style ([bare sep].intercalate pieces) :=
  foldl_extend style [] (forall₂_intersperse (shows_piece style (p := bare sep) rfl) h)

end Markup

/-! ## What is put together -/

open Markup

theorem renderMessage_eq (message : String) :
    renderMessage style message = ofPieces style (ofMessage message) := by
  have hempty : ofText "" "" = ofPieces style [] := rfl
  rw [renderMessage, hempty, show style.error = style.ofRole .error from rfl, append_styled,
    append_bare, show style.message = style.ofRole .message from rfl, append_styled]
  rfl

theorem renderLocation_eq (l : Location) :
    renderLocation style l = ofPieces style (ofLocation l) := by
  have hempty : ofText "" "" = ofPieces style [] := rfl
  have hlocation : style.location = style.ofRole .location := rfl
  have hgutter : style.gutter = style.ofRole .gutter := rfl
  simp only [renderLocation, hempty, hlocation, hgutter, append_styled, append_bare]
  rfl

/-- **What is put together.**  Whatever the style, it is the text of the violation, and its spans
are those of the pieces. -/
theorem render_eq (v : Violation) : render style v = ofPieces style (ofViolation v) := by
  have hmessage : (renderMessage style v.message).Shows style (ofMessage v.message) := by
    rw [renderMessage_eq]
    exact shows_ofPieces style _
  cases v with
  | emptyFile file =>
    exact join_eq style "\n" (.cons hmessage (.cons (shows_file style file) .nil))
  | located fault places =>
    cases places with
    | nil => exact join_eq style "\n" (.cons hmessage .nil)
    | cons l places =>
      have hblocks : List.Forall₂ (Shows style) ((l :: places).map (renderLocation style))
          ((l :: places).map ofLocation) := by
        rw [List.forall₂_map_left_iff, List.forall₂_map_right_iff, List.forall₂_same]
        intro p _
        rw [renderLocation_eq]
        exact shows_ofPieces style _
      have hplaces : ((ofText "\n\n" "").join ((l :: places).map (renderLocation style))).Shows
          style (ofLocations (l :: places)) := by
        rw [join_eq style "\n\n" hblocks]
        exact shows_ofPieces style _
      exact join_eq style "\n" (.cons hmessage (.cons hplaces .nil))

end Spans

end Diagnostic

end PrototypeOrder
