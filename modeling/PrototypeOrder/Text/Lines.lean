/-
# Lines of a text

A newline ends a row, and nothing else does.  `split` cuts a list at every
occurrence of a separator; applied to characters it gives the rows of a text, applied
to bytes the rows of a file.  The line shown to the user is a row without the
carriage returns at its end.
-/
import PrototypeOrder.Text.Utf8

namespace PrototypeOrder

/-- The parts of a list between the occurrences of a separator. -/
def split {α : Type} [DecidableEq α] (sep : α) : List α → List (List α)
  | [] => [[]]
  | x :: xs =>
    if x = sep then [] :: split sep xs
    else match split sep xs with
      | [] => [[x]]
      | part :: parts => (x :: part) :: parts

/-- There is one part more than there are separators. -/
theorem length_split {α : Type} [DecidableEq α] (sep : α) (xs : List α) :
    (split sep xs).length = xs.count sep + 1 := by
  induction xs with
  | nil => rfl
  | cons x xs ih =>
    by_cases h : x = sep
    · simp [split, h, ih]
    · rw [split, if_neg h, List.count_cons_of_ne (by simpa using h), ← ih]
      cases hs : split sep xs with
      | nil => simp [hs] at ih
      | cons part parts => simp

/-- There is at least one part. -/
theorem split_ne_nil {α : Type} [DecidableEq α] (sep : α) (xs : List α) : split sep xs ≠ [] := by
  intro h
  have hlen := length_split sep xs
  rw [h] at hlen
  simp at hlen

/-- A list that is cut at a separator has the parts before it and the parts after it. -/
theorem split_append_cons {α : Type} [DecidableEq α] (sep : α) (xs ys : List α) :
    split sep (xs ++ sep :: ys) = split sep xs ++ split sep ys := by
  induction xs with
  | nil => simp [split]
  | cons x xs ih =>
    rw [List.cons_append, split, split]
    split
    · rw [ih, List.cons_append]
    · rw [ih]
      cases hs : PrototypeOrder.split sep xs with
      | nil => exact absurd hs (split_ne_nil sep xs)
      | cons part parts => rfl

namespace Lines

/-- The rows of a file as text: the whole file is decoded and cut at its newlines. -/
def ofBytes (bytes : Bytes) : List (List Char) := split '\n' (Utf8.decode bytes)

/-- A row without the carriage returns at its end. -/
def trimReturns (row : List Char) : List Char :=
  (row.reverse.dropWhile (· = '\r')).reverse

/-- The line to show for a row; a row outside the file has an empty line. -/
def lineAt (rows : List (List Char)) (row : Int) : String :=
  match row with
  | .ofNat n => String.ofList (trimReturns (rows.getD n []))
  | .negSucc _ => ""

end Lines

end PrototypeOrder
