/-
# A style marks a text and does not change it

A marked text is cut by its spans into stretches that are outside and stretches that are under a
span (`Diagnostic.Cuts`).  Where the spans are, and what is under and between them, follows from
that.  For a violation the stretches can be listed: under the spans are the parts that a style
can mark, and outside are separators and source lines.

* `Diagnostic.cuts_spansFrom` : how the spans of pieces cut the text;
* `Diagnostic.Cuts.bounds`, `Diagnostic.Cuts.ordered`, `Diagnostic.Cuts.under_eq`,
  `Diagnostic.Cuts.gaps_eq` : what follows;
* `Diagnostic.inside_ofViolation`, `Diagnostic.outside_ofViolation` : the stretches of a violation.
-/
import PrototypeOrder.Proofs.Markup

namespace PrototypeOrder

namespace Diagnostic

/-! ## Texts that are cut by spans -/

/-- The text under a span. -/
def Span.under (text : List Char) (s : Span) : List Char :=
  (text.drop s.start).take (s.stop - s.start)

/-- The stretches of a text from an offset on that are outside of given spans: before the first
one, between each two, and after the last one. -/
def gaps (text : List Char) : Nat → List Span → List (List Char)
  | start, [] => [text.drop start]
  | start, s :: spans => (text.drop start).take (s.start - start) :: gaps text s.stop spans

/-- A text that begins at an offset is cut by spans, one after the other, into the stretches
`outside` and those under the spans; `inside` has the latter with the styles of the spans. -/
inductive Cuts : Nat → List Char → List Span → (outside : List (List Char)) →
    (inside : List (String × List Char)) → Prop where
  | last (start : Nat) (gap : List Char) : Cuts start gap [] [gap] []
  | span {start : Nat} {gap under text : List Char} {style : String} {spans : List Span}
      {outside : List (List Char)} {inside : List (String × List Char)}
      (hrest : Cuts (start + gap.length + under.length) text spans outside inside) :
      Cuts start (gap ++ under ++ text)
        (⟨start + gap.length, start + gap.length + under.length, style⟩ :: spans)
        (gap :: outside) ((style, under) :: inside)

namespace Cuts

variable {start : Nat} {text : List Char} {spans : List Span} {outside : List (List Char)}
  {inside : List (String × List Char)}

/-- The spans are within the text. -/
theorem bounds (h : Cuts start text spans outside inside) :
    ∀ s ∈ spans, start ≤ s.start ∧ s.start ≤ s.stop ∧ s.stop ≤ start + text.length := by
  induction h with
  | last => simp
  | span _ ih =>
    intro s hs
    simp only [List.length_append]
    rcases List.mem_cons.1 hs with rfl | hs
    · dsimp only
      omega
    · have hbounds := ih s hs
      omega

/-- The spans are in order and do not overlap. -/
theorem ordered (h : Cuts start text spans outside inside) :
    spans.Pairwise fun s t => s.stop ≤ t.start := by
  induction h with
  | last => exact .nil
  | span hrest ih =>
    refine List.pairwise_cons.2 ⟨?_, ih⟩
    intro s hs
    exact (hrest.bounds s hs).1

/-- What is under the spans, where something may stand before the text. -/
theorem under_eq (h : Cuts start text spans outside inside) (before : List Char)
    (hbefore : before.length = start) :
    spans.map (fun s => (s.style, s.under (before ++ text))) = inside := by
  induction h generalizing before with
  | last => rfl
  | @span start gap under text style spans outside inside _ ih =>
    have hhead : Span.under (before ++ (gap ++ under ++ text))
        ⟨start + gap.length, start + gap.length + under.length, style⟩ = under := by
      have hsplit : before ++ (gap ++ under ++ text) = (before ++ gap) ++ (under ++ text) := by
        simp only [List.append_assoc]
      rw [Span.under, Nat.add_sub_cancel_left, hsplit, ← hbefore, ← List.length_append,
        List.drop_left, List.take_left]
    have htail := ih (before ++ (gap ++ under)) (by simp [hbefore, Nat.add_assoc])
    rw [List.map_cons, hhead, ← htail, List.append_assoc before]

/-- What is outside of the spans. -/
theorem gaps_eq (h : Cuts start text spans outside inside) (before : List Char)
    (hbefore : before.length = start) : gaps (before ++ text) start spans = outside := by
  induction h generalizing before with
  | last => simp [gaps, ← hbefore]
  | @span start gap under text style spans outside inside _ ih =>
    have htail := ih (before ++ (gap ++ under)) (by simp [hbefore, Nat.add_assoc])
    rw [gaps, ← htail, Nat.add_sub_cancel_left, ← hbefore, List.drop_left, List.append_assoc gap,
      List.take_left, List.append_assoc before, List.append_assoc gap]

end Cuts

/-! ## The stretches of pieces -/

section Stretches

variable (style : Style)

/-- The stretches of pieces under a span, with its style. -/
def inside (ps : List Piece) : List (String × List Char) :=
  ps.filterMap fun p => (style.ofPiece p).map fun s => (s, written p.text)

/-- The stretches of pieces outside of spans; `gap` is what stands before the pieces and after
the last span. -/
def outside (gap : List Char) : List Piece → List (List Char)
  | [] => [gap]
  | p :: ps =>
    match style.ofPiece p with
    | some _ => gap :: outside [] ps
    | none => outside (gap ++ written p.text) ps

/-- **How pieces are cut.**  The spans of pieces cut their text into the stretches of the
pieces. -/
theorem cuts_spansFrom (start : Nat) (gap : List Char) (ps : List Piece) :
    Cuts start (gap ++ chars ps) (spansFrom style (start + gap.length) ps)
      (outside style gap ps) (inside style ps) := by
  induction ps generalizing start gap with
  | nil =>
    rw [show gap ++ chars [] = gap from List.append_nil gap]
    exact .last start gap
  | cons p ps ih =>
    rw [chars_cons, ← List.append_assoc, spansFrom, outside, inside, List.filterMap_cons]
    cases style.ofPiece p with
    | none =>
      have hgap := ih start (gap ++ written p.text)
      rwa [List.length_append, ← Nat.add_assoc] at hgap
    | some s =>
      exact .span (ih (start + gap.length + (written p.text).length) [])

theorem inside_append (ps qs : List Piece) :
    inside style (ps ++ qs) = inside style ps ++ inside style qs :=
  List.filterMap_append

theorem inside_bare (text : String) (ps : List Piece) :
    inside style (bare text :: ps) = inside style ps := rfl

theorem outside_bare (gap : List Char) (text : String) (ps : List Piece) :
    outside style gap (bare text :: ps) = outside style (gap ++ written text) ps := rfl

/-- A text with a role is marked when its role has a style. -/
theorem ofPiece_styled (role : Role) {text : String} (h : text ≠ "") :
    style.ofPiece (styled role text) =
      if style.ofRole role = "" then none else some (style.ofRole role) := by
  by_cases hrole : style.ofRole role = ""
  · simp [Style.ofPiece, styled, hrole]
  · simp [Style.ofPiece, styled, hrole, h]

theorem ofPiece_file (file : String) :
    style.ofPiece ⟨some .location, file, true⟩ =
      if style.ofRole .location = "" then none else some (style.ofRole .location) := by
  by_cases h : style.ofRole .location = ""
  · simp [Style.ofPiece, h]
  · simp [Style.ofPiece, h]

/-- The stretches of parts with a role that are marked in a style. -/
def marked (parts : List (Role × List Char)) : List (String × List Char) :=
  (parts.filter fun part => style.ofRole part.1 ≠ "").map fun part =>
    (style.ofRole part.1, part.2)

theorem marked_append (parts more : List (Role × List Char)) :
    marked style (parts ++ more) = marked style parts ++ marked style more := by
  rw [marked, List.filter_append, List.map_append, marked, marked]

/-- A piece with a role is a stretch under a span when it is marked. -/
theorem inside_cons {p : Piece} {role : Role}
    (h : style.ofPiece p = if style.ofRole role = "" then none else some (style.ofRole role))
    (ps : List Piece) :
    inside style (p :: ps) = marked style [(role, written p.text)] ++ inside style ps := by
  rw [inside, List.filterMap_cons, h]
  by_cases hrole : style.ofRole role = ""
  · simp [marked, inside, hrole]
  · simp [marked, inside, hrole]

end Stretches

/-- No part is left without a style. -/
def Style.Full (style : Style) : Prop := ∀ role, style.ofRole role ≠ ""

theorem outside_cons {style : Style} {p : Piece} {role : Role} (hfull : style.Full)
    (h : style.ofPiece p = if style.ofRole role = "" then none else some (style.ofRole role))
    (gap : List Char) (ps : List Piece) :
    outside style gap (p :: ps) = gap :: outside style [] ps := by
  rw [outside, h, if_neg (hfull role)]

theorem marked_of_full {style : Style} (hfull : style.Full) (parts : List (Role × List Char)) :
    marked style parts = parts.map fun part => (style.ofRole part.1, part.2) := by
  rw [marked, List.filter_eq_self.2]
  intro part _
  exact decide_eq_true (hfull part.1)

/-! ## The stretches of a violation -/

/-- What is under the spans of a place: its label, and the gutter of three lines. -/
def placeParts (l : Location) : List (Role × List Char) :=
  [(.location, written l.label), (.gutter, bar l), (.gutter, number l ++ [' ', '|']),
    (.gutter, bar l)]

/-- What is under the spans of a violation: the word in front, the message, the file if there is
one, and the parts of each place. -/
def markedParts (v : Violation) : List (Role × List Char) :=
  (.error, "error:".toList) :: (.message, v.message.toList) ::
    ((v.file?.toList.map fun file => (Role.location, written file)) ++
      v.locations.flatMap placeParts)

/-- What is between the spans of places: `sep` before the first place, newlines, and the source
line after its number; and nothing after the last span. -/
def placeGaps (sep : List Char) : List Location → List (List Char)
  | [] => [[]]
  | l :: places =>
    sep :: ['\n'] :: ['\n'] :: (' ' :: written l.lineText ++ ['\n']) ::
      placeGaps ['\n', '\n'] places

/-- What is between the spans of a violation and after the last one, from the message on. -/
def gapsBelow : Violation → List (List Char)
  | .located _ places => placeGaps ['\n'] places
  | .emptyFile _ => [['\n'], []]

theorem append_bar_ne_empty (s : String) : s ++ " |" ≠ "" := by
  intro h
  have hchars := congrArg String.toList h
  simp at hchars

theorem label_ne_empty (l : Location) : l.label ≠ "" := by
  intro h
  have hchars := congrArg String.toList h
  simp [Location.toList_label] at hchars

theorem message_ne_empty (v : Violation) : v.message ≠ "" := by
  rw [Violation.message]
  cases v.kind with
  | fault f => cases f <;> decide
  | emptyHeaderOnly => decide

section Places

variable (style : Style)

theorem inside_ofLocation (l : Location) :
    inside style (ofLocation l) = marked style (placeParts l) := by
  have hlabel := ofPiece_styled style .location (label_ne_empty l)
  have hbar := fun s => ofPiece_styled style .gutter (append_bar_ne_empty s)
  simp only [ofLocation, lineBreak]
  rw [inside_cons style hlabel, inside_bare, inside_cons style (hbar _), inside_bare,
    inside_cons style (hbar _), inside_bare, inside_bare, inside_cons style (hbar _)]
  simp only [styled, written_pad, written_number]
  rw [show inside style [] = [] from rfl, List.append_nil, ← marked_append, ← marked_append,
    ← marked_append]
  rfl

theorem inside_ofLocations (places : List Location) :
    inside style (ofLocations places) = marked style (places.flatMap placeParts) := by
  induction places with
  | nil => rfl
  | cons l places ih =>
    rw [List.flatMap_cons, marked_append, ← ih, ← inside_ofLocation]
    cases places with
    | nil =>
      rw [ofLocations, List.map_singleton, List.intercalate_singleton]
      exact (List.append_nil _).symm
    | cons l' places =>
      rw [ofLocations, List.map_cons, List.map_cons, List.intercalate_cons_cons, List.append_assoc,
        inside_append, List.singleton_append, inside_bare]
      rfl

theorem inside_ofMessage (v : Violation) :
    inside style (ofMessage v.message) =
      marked style [(.error, "error:".toList), (.message, v.message.toList)] := by
  have herror := ofPiece_styled style .error (show "error:" ≠ "" by decide)
  have hmessage := ofPiece_styled style .message (message_ne_empty v)
  rw [ofMessage, inside_cons style herror, inside_bare, inside_cons style hmessage, styled, styled,
    (oneLine_message v).written_eq, show inside style [] = [] from rfl, List.append_nil,
    ← marked_append]
  rfl

/-- The stretches under the spans of a violation are its parts that have a style. -/
theorem inside_ofViolation (v : Violation) :
    inside style (ofViolation v) = marked style (markedParts v) := by
  have hmessage := inside_ofMessage style v
  have hbelow : ∀ part : List Piece, inside style ([lineBreak].intercalate
      [ofMessage v.message, part]) = inside style (ofMessage v.message) ++ inside style part := by
    intro part
    rw [List.intercalate_cons_cons, List.intercalate_singleton, List.append_assoc, inside_append]
    rfl
  cases v with
  | emptyFile file =>
    rw [ofViolation, parts, hbelow, hmessage, ofFile, inside_cons style (ofPiece_file style file)]
    rw [show inside style [] = [] from rfl, List.append_nil, ← marked_append]
    rfl
  | located fault places =>
    cases places with
    | nil =>
      rw [ofViolation, parts, List.intercalate_singleton, hmessage]
      rfl
    | cons l places =>
      rw [ofViolation, parts, hbelow, hmessage, inside_ofLocations, ← marked_append]
      · rfl
      · exact List.cons_ne_nil l places

end Places

theorem outside_ofLocation {style : Style} (hfull : style.Full) (l : Location) (gap : List Char)
    (rest : List Piece) :
    outside style gap (ofLocation l ++ rest) =
      gap :: ['\n'] :: ['\n'] :: (' ' :: written l.lineText ++ ['\n']) ::
        outside style [] rest := by
  have hlabel := ofPiece_styled style .location (label_ne_empty l)
  have hbar := fun s => ofPiece_styled style .gutter (append_bar_ne_empty s)
  have hsource : written (" " ++ l.lineText) = ' ' :: written l.lineText := by
    rw [written_append]
    rfl
  simp only [ofLocation, lineBreak, List.cons_append, List.nil_append]
  rw [outside_cons hfull hlabel, outside_bare, outside_cons hfull (hbar _), outside_bare,
    outside_cons hfull (hbar _), outside_bare, outside_bare, outside_cons hfull (hbar _), hsource]
  rfl

theorem outside_ofLocations {style : Style} (hfull : style.Full) (l : Location)
    (places : List Location) (gap : List Char) :
    outside style gap (ofLocations (l :: places)) = placeGaps gap (l :: places) := by
  induction places generalizing l gap with
  | nil =>
    have hone := outside_ofLocation hfull l gap []
    rw [List.append_nil] at hone
    rw [ofLocations, List.map_singleton, List.intercalate_singleton, hone]
    rfl
  | cons l' places ih =>
    rw [ofLocations, List.map_cons, List.map_cons, List.intercalate_cons_cons, List.append_assoc,
      outside_ofLocation hfull, List.singleton_append, outside_bare, ← List.map_cons,
      ← ofLocations, ih, placeGaps]
    rfl

/-- The stretches between the spans of a violation are separators and source lines. -/
theorem outside_ofViolation {style : Style} (hfull : style.Full) (v : Violation) :
    outside style [] (ofViolation v) = [] :: [' '] :: gapsBelow v := by
  have herror := ofPiece_styled style .error (show "error:" ≠ "" by decide)
  have hmessage := ofPiece_styled style .message (message_ne_empty v)
  have hbelow : ∀ rest : List Piece, outside style [] (ofMessage v.message ++ rest) =
      [] :: [' '] :: outside style [] rest := by
    intro rest
    rw [ofMessage, List.cons_append, List.cons_append, List.cons_append, List.nil_append,
      outside_cons hfull herror, outside_bare, outside_cons hfull hmessage]
    rfl
  cases v with
  | emptyFile file =>
    rw [ofViolation, parts, List.intercalate_cons_cons, List.intercalate_singleton,
      List.append_assoc, hbelow, List.singleton_append, lineBreak, outside_bare, ofFile,
      outside_cons hfull (ofPiece_file style file)]
    rfl
  | located fault places =>
    cases places with
    | nil =>
      rw [ofViolation, parts, List.intercalate_singleton, ← List.append_nil (ofMessage _), hbelow]
      rfl
    | cons l places =>
      rw [ofViolation, parts, List.intercalate_cons_cons, List.intercalate_singleton,
        List.append_assoc, hbelow, List.singleton_append, lineBreak, outside_bare,
        outside_ofLocations hfull]
      · rfl
      · exact List.cons_ne_nil l places

/-! ## What a style does -/

/-- **A style marks a text and does not change it.**  A violation is put together in a style.

* The text is the same as without any style, and the marks are the spans of the pieces.
* The spans are within the text, in order, and do not overlap.
* The texts under the spans are, in order, the word in front, the message, the file if there is
  one, and the label and the three gutters of each place: those whose part has a style.
* If every part has a style, all of them are marked, and what is outside of the spans are
  separators and source lines. -/
theorem render_marks_parts (v : Violation) (style : Style) :
    let text := chars (ofViolation v)
    let marks := spans style (ofViolation v)
    (render style v = ⟨text, "", marks⟩ ∧ (render style v).chars = (render .none v).chars ∧
      String.ofList (render style v).chars = format v) ∧
    (marks.Pairwise fun s t => s.stop ≤ t.start) ∧
    (∀ s ∈ marks, s.start ≤ s.stop ∧ s.stop ≤ text.length) ∧
    marks.map (fun s => (s.style, s.under text)) = marked style (markedParts v) ∧
    (style.Full →
      marks.map (fun s => (s.style, s.under text)) =
        (markedParts v).map (fun part => (style.ofRole part.1, part.2)) ∧
      gaps text 0 marks = [] :: [' '] :: gapsBelow v) := by
  intro text marks
  have hcuts : Cuts 0 text marks (outside style [] (ofViolation v))
      (inside style (ofViolation v)) := cuts_spansFrom style 0 [] (ofViolation v)
  have hrender : render style v = ⟨text, "", marks⟩ := render_eq style v
  have hunder : marks.map (fun s => (s.style, s.under text)) = marked style (markedParts v) := by
    rw [← inside_ofViolation]
    exact hcuts.under_eq [] rfl
  refine ⟨⟨hrender, ?_, ?_⟩, hcuts.ordered, ?_, hunder, ?_⟩
  · rw [hrender, render_eq]
    rfl
  · rw [hrender]
    rfl
  · intro s hs
    have hbounds := hcuts.bounds s hs
    rw [Nat.zero_add] at hbounds
    exact hbounds.2
  · intro hfull
    refine ⟨hunder.trans (marked_of_full hfull _), ?_⟩
    rw [← outside_ofViolation hfull]
    exact hcuts.gaps_eq [] rfl

/-- A bell in the name of a file, two places whose numbers have one digit and two, and a carriage
return at the end of a source line: in the colours used unless others are asked for, the gaps are
where they should be. -/
theorem render_marks_parts_bell :
    let v : Violation :=
      .located .outOfOrder [⟨8, 0, "a\x07", "x"⟩, ⟨9, 0, "b", "y\r"⟩]
    Style.standard.Full ∧
      gaps (chars (ofViolation v)) 0 (spans .standard (ofViolation v)) =
        [[], [' '], ['\n'], ['\n'], ['\n'], [' ', 'x', '\n'], ['\n', '\n'], ['\n'], ['\n'],
          [' ', 'y', '\n'], []] := by
  intro v
  have hfull : Style.standard.Full := by
    intro role
    cases role <;> decide
  refine ⟨hfull, ?_⟩
  obtain ⟨-, -, -, -, hstyled⟩ := render_marks_parts v .standard
  exact (hstyled hfull).2.trans (by decide)

end Diagnostic

end PrototypeOrder
