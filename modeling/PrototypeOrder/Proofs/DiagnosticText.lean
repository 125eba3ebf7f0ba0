/-
# Diagnostics can be read back

The text of a diagnostic determines the violation, as long as the names of files and the source
lines in it are lines of their own and have no characters that are never written.  It is read
from its lines: the first one has the message, and every place takes four lines, with an empty
one between two places.  A place begins with its label, whose numbers are read from the right,
since the name of a file may have colons and digits in it.

* `Location.label_inj` : the label of a place determines its file, line and column;
* `Diagnostic.split_ofViolation` : the lines of a diagnostic;
* `Diagnostic.blockLines_inj`, `Diagnostic.linesBelow_inj` : a place and a violation are determined
  by their lines.
-/
import PrototypeOrder.Diagnostic.Basic
import PrototypeOrder.Proofs.JsonText
import PrototypeOrder.Proofs.PathNames

namespace PrototypeOrder

/-! ## What determines a violation -/

namespace Kind

/-- Every kind has a message of its own. -/
theorem message_inj {k k' : Kind} (h : k.message = k'.message) : k = k' := by
  have hall : ∀ k ∈ all, ∀ k' ∈ all, k.message = k'.message → k = k' := by decide
  exact hall k (mem_all k) k' (mem_all k') h

/-- Every kind has a name of its own. -/
theorem name_inj {k k' : Kind} (h : k.name = k'.name) : k = k' := by
  have hall : ∀ k ∈ all, ∀ k' ∈ all, k.name = k'.name → k = k' := by decide
  exact hall k (mem_all k) k' (mem_all k') h

end Kind

theorem Location.ext_shown {l l' : Location} (hfile : l.file = l'.file) (hline : l.line = l'.line)
    (hcol : l.col = l'.col) (htext : l.lineText = l'.lineText) : l = l' := by
  obtain ⟨row, column, file, lineText⟩ := l
  obtain ⟨row', column', file', lineText'⟩ := l'
  have hrow : row = row' := (Int.add_left_inj 1).1 hline
  have hcolumn : column = column' := (Int.add_left_inj 1).1 hcol
  rw [hrow, hcolumn, show file = file' from hfile, show lineText = lineText' from htext]

theorem Location.report_inj {l l' : Location} (h : l.report = l'.report) : l = l' := by
  simp only [report, LocationReport.mk.injEq] at h
  obtain ⟨hfile, hline, hcol, htext⟩ := h
  exact ext_shown hfile hline hcol htext

namespace Violation

/-- A violation is determined by its kind, its file if it has one, and its places. -/
theorem eq_of_parts {v w : Violation} (hkind : v.kind = w.kind) (hfile : v.file? = w.file?)
    (hplaces : v.locations = w.locations) : v = w := by
  cases v with
  | located fault places =>
    cases w with
    | located fault' places' =>
      rw [Kind.fault.inj hkind, show places = places' from hplaces]
    | emptyFile file' => cases hkind
  | emptyFile file =>
    cases w with
    | located fault' places' => cases hkind
    | emptyFile file' => rw [Option.some.inj hfile]

/-- The report of a violation determines it. -/
theorem report_inj {v w : Violation} (h : v.report = w.report) : v = w := by
  simp only [report, ViolationReport.mk.injEq] at h
  obtain ⟨hname, -, hplaces, hfile⟩ := h
  refine eq_of_parts (Kind.name_inj hname) hfile ?_
  exact (List.map_inj_right fun _ _ => Location.report_inj).1 hplaces

/-- The texts from outside that a violation shows: the names of files, and source lines. -/
def texts : Violation → List String
  | located _ places => places.flatMap fun l => [l.file, l.lineText]
  | emptyFile file => [file]

end Violation

/-! ## Labels -/

namespace Location

theorem toList_label (l : Location) :
    l.label.toList =
      l.file.toList ++ ':' :: ((toString l.line).toList ++ ':' :: (toString l.col).toList) := by
  simp only [label, String.toList_append, List.append_assoc]
  rfl

/-- The label of a place determines its file, its line and its column, whatever characters the
name of the file has. -/
theorem label_inj {l l' : Location} (h : l.label = l'.label) :
    l.file = l'.file ∧ l.line = l'.line ∧ l.col = l'.col := by
  have hnumeral : ∀ n : Int, ∀ c ∈ (toString n).toList.reverse, JsonValue.isNumeral c = true :=
    fun n c hc => JsonValue.isNumeral_of_mem (List.mem_reverse.1 hc)
  have hcolon : ∀ cs : List Char, ∀ c ∈ (':' :: cs).head?, JsonValue.isNumeral c = false := by
    intro cs c hc
    rw [← Option.some.inj hc]
    decide
  -- from the right, each number ends at the first colon
  have hchars := congrArg List.reverse (congrArg String.toList h)
  simp only [toList_label, List.reverse_append, List.reverse_cons, List.append_assoc,
    List.singleton_append] at hchars
  obtain ⟨hcol, hrest⟩ := JsonValue.append_inj_of_head (hnumeral l.col) (hnumeral l'.col)
    (hcolon _) (hcolon _) hchars
  obtain ⟨hline, hfile⟩ := JsonValue.append_inj_of_head (hnumeral l.line) (hnumeral l'.line)
    (hcolon _) (hcolon _) (List.cons.inj hrest).2
  have hnumber : ∀ n n' : Int, (toString n).toList.reverse = (toString n').toList.reverse →
      n = n' := fun n n' heq =>
    Int.repr_injective (String.toList_inj.1 (List.reverse_injective heq))
  refine ⟨?_, hnumber _ _ hline, hnumber _ _ hcol⟩
  exact String.toList_inj.1 (List.reverse_injective (List.cons.inj hfile).2)

end Location

namespace Diagnostic

/-! ## Texts on one line -/

/-- A text that is written as it is, on one line: it has no newline and no character that is
never written. -/
def OneLine (text : String) : Prop := ∀ c ∈ text.toList, c ≠ '\n' ∧ isDropped c = false

theorem oneLine_iff (text : String) :
    (text.toList.all fun c => c ≠ '\n' && !isDropped c) = true ↔ OneLine text := by
  simp [OneLine]

instance (text : String) : Decidable (OneLine text) := decidable_of_iff _ (oneLine_iff text)

theorem written_append (s t : String) : written (s ++ t) = written s ++ written t := by
  rw [written, String.toList_append, List.filter_append, written, written]

theorem OneLine.written_eq {text : String} (h : OneLine text) : written text = text.toList := by
  rw [written, List.filter_eq_self]
  intro c hc
  rw [(h c hc).2]
  rfl

theorem OneLine.newline_notMem {text : String} (h : OneLine text) : '\n' ∉ text.toList :=
  fun hc => (h '\n' hc).1 rfl

/-- Numbers are written as they are. -/
theorem oneLine_toString (n : Int) : OneLine (toString n) := by
  intro c hc
  have hnumeral := JsonValue.isNumeral_of_mem hc
  rw [JsonValue.isNumeral, Bool.or_eq_true, decide_eq_true_eq] at hnumeral
  rcases hnumeral with rfl | hdigit
  · decide
  · have hrange : 48 ≤ c.toNat ∧ c.toNat ≤ 57 := Char.isDigit_iff_toNat.1 hdigit
    constructor
    · rintro rfl
      exact absurd hrange (by decide)
    · simp only [isDropped, Bool.or_eq_false_iff, decide_eq_false_iff_not]
      omega

theorem OneLine.label {l : Location} (h : OneLine l.file) : OneLine l.label := by
  intro c hc
  rw [Location.toList_label] at hc
  simp only [List.mem_append, List.mem_cons] at hc
  rcases hc with hfile | rfl | hline | rfl | hcol
  · exact h c hfile
  · decide
  · exact oneLine_toString l.line c hline
  · decide
  · exact oneLine_toString l.col c hcol

/-- Messages are written as they are. -/
theorem oneLine_message (v : Violation) : OneLine v.message := by
  rw [Violation.message]
  cases v.kind with
  | fault f => cases f <;> decide
  | emptyHeaderOnly => decide

/-! ## The lines of a place -/

/-- The digits of the line of a place. -/
def number (l : Location) : List Char := (toString l.line).toList

/-- The bar below and above the line of a place. -/
def bar (l : Location) : List Char := List.replicate (number l).length ' ' ++ [' ', '|']

/-- The four lines that show a place. -/
def blockLines (l : Location) : List (List Char) :=
  [l.label.toList, bar l, number l ++ ' ' :: '|' :: ' ' :: l.lineText.toList, bar l]

theorem length_blockLines (l : Location) : (blockLines l).length = 4 := rfl

theorem newline_notMem_number (l : Location) : '\n' ∉ number l :=
  (oneLine_toString l.line).newline_notMem

theorem newline_notMem_bar (l : Location) : '\n' ∉ bar l := by
  rw [bar, List.mem_append, List.mem_replicate]
  rintro (h | h)
  · exact absurd h.2 (by decide)
  · exact absurd h (by decide)

theorem written_pad (l : Location) :
    written (String.ofList (List.replicate (toString l.line).length ' ') ++ " |") = bar l := by
  have hblank : ∀ n, (List.replicate n ' ').filter (fun c => !isDropped c) =
      List.replicate n ' ' := by
    intro n
    rw [List.filter_eq_self]
    intro c hc
    rw [List.eq_of_mem_replicate hc]
    decide
  rw [written_append, written, String.toList_ofList, hblank, bar, number, String.length_toList]
  rfl

theorem written_number (l : Location) :
    written (toString l.line ++ " |") = number l ++ [' ', '|'] := by
  rw [written_append, (oneLine_toString l.line).written_eq]
  rfl

/-- A place as it is written. -/
theorem chars_ofLocation (l : Location) :
    chars (ofLocation l) =
      written l.label ++ '\n' :: (bar l ++ '\n' ::
        (number l ++ ' ' :: '|' :: ' ' :: written l.lineText ++ '\n' :: bar l)) := by
  have hsource : written (" " ++ l.lineText) = ' ' :: written l.lineText := by
    rw [written_append]
    rfl
  have hbreak : written "\n" = ['\n'] := rfl
  simp only [chars, ofLocation, styled, bare, lineBreak, List.flatMap_cons, List.flatMap_nil,
    written_pad, written_number, hsource, hbreak]
  simp

/-- The lines of a place that is written on its own. -/
theorem split_ofLocation {l : Location} (hfile : OneLine l.file) (htext : OneLine l.lineText) :
    split '\n' (chars (ofLocation l)) = blockLines l := by
  have hline : '\n' ∉ number l ++ ' ' :: '|' :: ' ' :: l.lineText.toList := by
    simp [newline_notMem_number l, htext.newline_notMem]
  rw [chars_ofLocation, hfile.label.written_eq, htext.written_eq, split_append_cons,
    split_append_cons, split_append_cons, split_of_notMem hfile.label.newline_notMem,
    split_of_notMem (newline_notMem_bar l), split_of_notMem hline]
  rfl

/-- The lines of a place determine it. -/
theorem blockLines_inj {l l' : Location} (h : blockLines l = blockLines l') : l = l' := by
  simp only [blockLines, List.cons.injEq] at h
  obtain ⟨hlabel, -, hsource, -⟩ := h
  obtain ⟨hfile, hline, hcol⟩ := Location.label_inj (String.toList_inj.1 hlabel)
  -- the number of the line is known, and the source line comes after it
  rw [number, number, hline] at hsource
  have htext := List.append_cancel_left hsource
  simp only [List.cons.injEq, true_and] at htext
  exact Location.ext_shown hfile hline hcol (String.toList_inj.1 htext)

/-! ## The lines of a violation -/

/-- The lines below the message: those of the places, with an empty one between each two, or the
file. -/
def linesBelow : Violation → List (List Char)
  | .located _ places => [[]].intercalate (places.map blockLines)
  | .emptyFile file => [file.toList]

theorem chars_append (ps qs : List Piece) : chars (ps ++ qs) = chars ps ++ chars qs :=
  List.flatMap_append

theorem chars_ofLocations_cons (l l' : Location) (places : List Location) :
    chars (ofLocations (l :: l' :: places)) =
      chars (ofLocation l) ++ '\n' :: '\n' :: chars (ofLocations (l' :: places)) := by
  rw [ofLocations, List.map_cons, List.map_cons, List.intercalate_cons_cons, chars_append,
    chars_append, List.append_assoc]
  rfl

/-- The lines of places that are written below each other. -/
theorem split_ofLocations {places : List Location} (hne : places ≠ [])
    (h : ∀ l ∈ places, OneLine l.file ∧ OneLine l.lineText) :
    split '\n' (chars (ofLocations places)) = [[]].intercalate (places.map blockLines) := by
  induction places with
  | nil => exact absurd rfl hne
  | cons l places ih =>
    rw [List.forall_mem_cons] at h
    have hfirst := split_ofLocation h.1.1 h.1.2
    cases places with
    | nil =>
      rw [List.map_singleton, List.intercalate_singleton, ← hfirst, ofLocations,
        List.map_singleton, List.intercalate_singleton]
    | cons l' places =>
      rw [chars_ofLocations_cons, split_append_cons, hfirst, List.map_cons, List.map_cons,
        List.intercalate_cons_cons, ← List.map_cons, ← ih (List.cons_ne_nil _ _) h.2,
        List.append_assoc]
      rfl

/-- The line of the message. -/
theorem chars_ofMessage (v : Violation) :
    chars (ofMessage v.message) = "error: ".toList ++ v.message.toList := by
  rw [← (oneLine_message v).written_eq]
  simp [chars, ofMessage, styled, bare, written, isDropped]

theorem newline_notMem_ofMessage (v : Violation) : '\n' ∉ chars (ofMessage v.message) := by
  rw [chars_ofMessage, List.mem_append]
  rintro (h | h)
  · exact absurd h (by decide)
  · exact (oneLine_message v).newline_notMem h

/-- What is written below a message comes after a newline. -/
theorem chars_below (v : Violation) (part : List Piece) :
    chars ([lineBreak].intercalate [ofMessage v.message, part]) =
      chars (ofMessage v.message) ++ '\n' :: chars part := by
  rw [List.intercalate_cons_cons, List.intercalate_singleton, chars_append, chars_append,
    List.append_assoc]
  rfl

/-- **The lines of a diagnostic.**  First the message, then the file or the places. -/
theorem split_ofViolation {v : Violation} (h : ∀ text ∈ v.texts, OneLine text) :
    split '\n' (chars (ofViolation v)) = chars (ofMessage v.message) :: linesBelow v := by
  have hmessage := split_of_notMem (newline_notMem_ofMessage v)
  cases v with
  | emptyFile file =>
    have hfile : OneLine file := h file (by simp [Violation.texts])
    rw [ofViolation, parts, chars_below, split_append_cons, hmessage]
    simp [linesBelow, ofFile, chars, hfile.written_eq, split_of_notMem hfile.newline_notMem]
  | located fault places =>
    cases places with
    | nil =>
      rw [ofViolation, parts, List.intercalate_singleton, hmessage]
      rfl
    | cons l places =>
      have hplaces : ∀ p ∈ l :: places, OneLine p.file ∧ OneLine p.lineText := by
        intro p hp
        exact ⟨h _ (List.mem_flatMap.2 ⟨p, hp, by simp⟩), h _ (List.mem_flatMap.2 ⟨p, hp, by simp⟩)⟩
      rw [ofViolation, parts, chars_below, split_append_cons, hmessage,
        split_ofLocations (List.cons_ne_nil _ _) hplaces]
      · rfl
      · exact List.cons_ne_nil l places

/-! ## Reading back -/

/-- With an empty line before the first place as well, all places are alike. -/
theorem blank_cons_intercalate (l : Location) (places : List Location) :
    [] :: [[]].intercalate ((l :: places).map blockLines) =
      (l :: places).flatMap fun p => [] :: blockLines p := by
  induction places generalizing l with
  | nil => simp
  | cons l' places ih =>
    rw [List.flatMap_cons, ← ih l', List.map_cons, List.map_cons, List.intercalate_cons_cons,
      List.append_assoc]
    rfl

/-- Each place takes five lines, the empty one included, so they can be read one by one. -/
theorem flatMap_blockLines_inj {places places' : List Location}
    (h : places.flatMap (fun p => [] :: blockLines p) =
      places'.flatMap fun p => [] :: blockLines p) : places = places' := by
  induction places generalizing places' with
  | nil =>
    cases places' with
    | nil => rfl
    | cons l' places' => simp at h
  | cons l places ih =>
    cases places' with
    | nil => simp at h
    | cons l' places' =>
      rw [List.flatMap_cons, List.flatMap_cons] at h
      have hlength : ([] :: blockLines l).length = ([] :: blockLines l').length := by
        rw [List.length_cons, List.length_cons, length_blockLines, length_blockLines]
      obtain ⟨hblock, hrest⟩ := List.append_inj h hlength
      rw [blockLines_inj (List.cons.inj hblock).2, ih hrest]

/-- The lines of places that are written below each other determine the places. -/
theorem places_inj {places places' : List Location}
    (h : [[]].intercalate (places.map blockLines) = [[]].intercalate (places'.map blockLines)) :
    places = places' := by
  have hblank := congrArg ([] :: ·) h
  cases places with
  | nil =>
    cases places' with
    | nil => rfl
    | cons l' places' =>
      -- the lines of a place are too many
      simp only [blank_cons_intercalate] at hblank
      simp [blockLines] at hblank
  | cons l places =>
    cases places' with
    | nil =>
      simp only [blank_cons_intercalate] at hblank
      simp [blockLines] at hblank
    | cons l' places' =>
      simp only [blank_cons_intercalate] at hblank
      exact flatMap_blockLines_inj hblank

/-- Violations of one kind are determined by the lines below the message. -/
theorem linesBelow_inj {v w : Violation} (hkind : v.kind = w.kind)
    (h : linesBelow v = linesBelow w) : v = w := by
  cases v with
  | emptyFile file =>
    cases w with
    | located fault' places' => cases hkind
    | emptyFile file' => rw [String.toList_inj.1 (List.cons.inj h).1]
  | located fault places =>
    cases w with
    | emptyFile file' => cases hkind
    | located fault' places' => rw [Kind.fault.inj hkind, places_inj h]

/-- **The text loses nothing.**  If the names of files and the source lines that two violations
show are texts of one line, equal texts come from violations of the same kind, with the same
places in the same order, and with the same file where there is no place.  So the texts are
equal exactly when the reports are. -/
theorem format_loses_nothing {v w : Violation} (hv : ∀ text ∈ v.texts, OneLine text)
    (hw : ∀ text ∈ w.texts, OneLine text) :
    (format v = format w →
      v.kind = w.kind ∧ v.file? = w.file? ∧ v.locations = w.locations) ∧
    (format v = format w ↔ v.report = w.report) := by
  have hread : format v = format w → v = w := by
    intro h
    have hlines := congrArg (split '\n') (String.ofList_injective h)
    rw [split_ofViolation hv, split_ofViolation hw, List.cons.injEq] at hlines
    have hmessage := List.append_cancel_left
      ((chars_ofMessage v).symm.trans (hlines.1.trans (chars_ofMessage w)))
    exact linesBelow_inj (Kind.message_inj (String.toList_inj.1 hmessage)) hlines.2
  refine ⟨?_, ?_, ?_⟩
  · intro h
    rw [hread h]
    exact ⟨rfl, rfl, rfl⟩
  · intro h
    rw [hread h]
  · intro h
    rw [Violation.report_inj h]

/-- Labels with colons and digits in the file, a source line that looks like a gutter, and
numbers below zero: the two violations have different texts. -/
theorem format_loses_nothing_colons :
    let v : Violation := .located .outOfOrder [⟨2, -5, "a.h:3", "3 | x"⟩, ⟨10, 0, "", ""⟩]
    let w : Violation := .located .outOfOrder [⟨2, -5, "a.h:3", "3 | x"⟩, ⟨10, 0, "", " "⟩]
    (∀ text ∈ v.texts, OneLine text) ∧ (∀ text ∈ w.texts, OneLine text) ∧
      format v ≠ format w := by
  intro v w
  have hv : ∀ text ∈ v.texts, OneLine text := by decide
  have hw : ∀ text ∈ w.texts, OneLine text := by decide
  refine ⟨hv, hw, ?_⟩
  intro h
  obtain ⟨-, -, hplaces⟩ := (format_loses_nothing hv hw).1 h
  exact absurd hplaces (by decide)

end Diagnostic

end PrototypeOrder
