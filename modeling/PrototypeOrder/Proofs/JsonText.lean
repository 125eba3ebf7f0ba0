/-
# Reports can be read back

The text of a JSON value, with all of Unicode written as it is, determines the value, and so the
text of a report determines the report.  The text of a value ends where a comma, a newline or
nothing follows, and its first character tells what form of value it is.

* `JsonValue.readChar_escapeChar` : characters inside a string can be read back one by one;
* `JsonValue.quote_inj` : so can strings;
* `JsonValue.readBack` : so can values, whatever follows them;
* `PairReport.render_inj` : so can reports.
-/
import Mathlib
import PrototypeOrder.Report

namespace PrototypeOrder

namespace JsonValue

/-! ## Strings -/

/-- The value of a hexadecimal digit. -/
def hexValue (c : Char) : Nat := (List.range 16).findIdx fun d => d.digitChar = c

/-- The number with given hexadecimal digits. -/
def readHex (digits : List Char) : Nat := digits.foldl (fun n c => 16 * n + hexValue c) 0

theorem hexValue_digitChar {d : Nat} (h : d < 16) : hexValue d.digitChar = d := by
  revert d
  decide

theorem readHex_hex (digits : Nat) {n : Nat} (h : n < 16 ^ digits) :
    readHex (Text.hex digits n) = n := by
  induction digits generalizing n with
  | zero =>
    rw [Nat.pow_zero] at h
    rw [Nat.lt_one_iff.1 h]
    rfl
  | succ digits ih =>
    have hrest : n / 16 < 16 ^ digits := by
      rw [Nat.pow_succ] at h
      omega
    have hdigit : hexValue (n % 16).digitChar = n % 16 :=
      hexValue_digitChar (Nat.mod_lt n (by decide))
    have hfront := ih hrest
    rw [readHex] at hfront ⊢
    rw [Text.hex, List.foldl_append, hfront, List.foldl_cons, List.foldl_nil, hdigit]
    omega

/-- The character that is written as a backslash and a letter. -/
def ofEscape (c : Char) : Char :=
  if c = 'n' then '\n'
  else if c = 'r' then '\r'
  else if c = 't' then '\t'
  else if c = 'b' then Char.ofNat 8
  else if c = 'f' then Char.ofNat 12
  else c

/-- The character whose escape goes on after a backslash, and what comes after it. -/
def readEscape : List Char → Option (Char × List Char)
  | [] => none
  | c :: rest =>
    if c = 'u' then some (Char.ofNat (readHex (rest.take 4)), rest.drop 4)
    else some (ofEscape c, rest)

/-- The first character of what is inside a string, and what comes after it.  There is none
before the quote at the end. -/
def readChar : List Char → Option (Char × List Char)
  | [] => none
  | c :: rest =>
    if c = '"' then none else if c = '\\' then readEscape rest else some (c, rest)

theorem readChar_escapeUnit {n : Nat} (h : n < 0x20) (rest : List Char) :
    readChar (escapeUnit n ++ rest) = some (Char.ofNat n, rest) := by
  have hread : readChar (escapeUnit n ++ rest) =
      some (Char.ofNat (readHex (Text.hex 4 n)), rest) := rfl
  rw [hread, readHex_hex 4 (by omega)]

/-- A character that is written inside a string can be read back. -/
theorem readChar_escapeChar (c : Char) (rest : List Char) :
    readChar (escapeChar .unicode c ++ rest) = some (c, rest) := by
  by_cases hquote : c = '"'
  · rw [hquote]
    rfl
  by_cases hbackslash : c = '\\'
  · rw [hbackslash]
    rfl
  by_cases hnewline : c = '\n'
  · rw [hnewline]
    rfl
  by_cases hreturn : c = '\r'
  · rw [hreturn]
    rfl
  by_cases htab : c = '\t'
  · rw [htab]
    rfl
  by_cases hbackspace : c.toNat = 8
  · rw [← Char.ofNat_toNat c, hbackspace]
    rfl
  by_cases hfeed : c.toNat = 12
  · rw [← Char.ofNat_toNat c, hfeed]
    rfl
  rw [escapeChar, if_neg hquote, if_neg hbackslash, if_neg hnewline, if_neg hreturn,
    if_neg htab, if_neg hbackspace, if_neg hfeed]
  by_cases hcontrol : c.toNat < 0x20
  · rw [if_pos hcontrol, readChar_escapeUnit hcontrol, Char.ofNat_toNat]
  · rw [if_neg hcontrol, if_neg (by simp), List.singleton_append, readChar, if_neg hquote,
      if_neg hbackslash]

/-- What is inside a string ends at the first quote that is not escaped. -/
theorem escape_inj {cs ds rest rest' : List Char}
    (h : cs.flatMap (escapeChar .unicode) ++ '"' :: rest =
      ds.flatMap (escapeChar .unicode) ++ '"' :: rest') : cs = ds ∧ rest = rest' := by
  induction cs generalizing ds with
  | nil =>
    cases ds with
    | nil => exact ⟨rfl, (List.cons.inj h).2⟩
    | cons d ds =>
      rw [List.flatMap_cons, List.append_assoc] at h
      have hread := congrArg readChar h
      rw [readChar_escapeChar] at hread
      cases hread
  | cons c cs ih =>
    rw [List.flatMap_cons, List.append_assoc] at h
    cases ds with
    | nil =>
      have hread := congrArg readChar h
      rw [readChar_escapeChar] at hread
      cases hread
    | cons d ds =>
      rw [List.flatMap_cons, List.append_assoc] at h
      have hread := congrArg readChar h
      rw [readChar_escapeChar, readChar_escapeChar, Option.some.injEq, Prod.mk.injEq] at hread
      obtain ⟨htail, hrest⟩ := ih hread.2
      exact ⟨by rw [hread.1, htail], hrest⟩

theorem toList_quote (s : String) :
    (quote .unicode s).toList = '"' :: (s.toList.flatMap (escapeChar .unicode) ++ ['"']) := by
  rw [quote, String.toList_ofList, List.cons_append]

/-- A string can be read back, whatever follows it. -/
theorem quote_inj {s s' : String} {rest rest' : List Char}
    (h : (quote .unicode s).toList ++ rest = (quote .unicode s').toList ++ rest') :
    s = s' ∧ rest = rest' := by
  rw [toList_quote, toList_quote] at h
  simp only [List.cons_append, List.append_assoc, List.nil_append] at h
  obtain ⟨hchars, hrest⟩ := escape_inj (List.cons.inj h).2
  exact ⟨String.toList_inj.1 hchars, hrest⟩

/-! ## Numbers -/

/-- What can follow a value: a comma, a newline or nothing. -/
def Ends (rest : List Char) : Prop := ∀ c ∈ rest.head?, c = ',' ∨ c = '\n'

/-- The characters of numbers. -/
def isNumeral (c : Char) : Bool := c = '-' || c.isDigit

theorem isNumeral_of_mem {n : Int} {c : Char} (h : c ∈ (toString n).toList) :
    isNumeral c = true := by
  rw [Int.toString_eq_repr, Int.repr_eq_if] at h
  split at h
  · rw [Nat.toList_repr] at h
    simp [isNumeral, Nat.isDigit_of_mem_toDigits (by decide) (by decide) h]
  · rw [String.toList_append, List.mem_append, Nat.toList_repr] at h
    rcases h with hsign | hdigit
    · have hc : c = '-' := by simpa using hsign
      simp [isNumeral, hc]
    · simp [isNumeral, Nat.isDigit_of_mem_toDigits (by decide) (by decide) hdigit]

theorem Ends.not_isNumeral {rest : List Char} (h : Ends rest) :
    ∀ c ∈ rest.head?, isNumeral c = false := by
  intro c hc
  rcases h c hc with rfl | rfl
  · decide
  · decide

/-- Of two equal texts, each begins with characters of one kind up to one that is not of this
kind.  Then both begin with the same characters. -/
theorem append_inj_of_head {p : Char → Bool} {xs ys rest rest' : List Char}
    (hxs : ∀ c ∈ xs, p c = true) (hys : ∀ c ∈ ys, p c = true)
    (hrest : ∀ c ∈ rest.head?, p c = false) (hrest' : ∀ c ∈ rest'.head?, p c = false)
    (h : xs ++ rest = ys ++ rest') : xs = ys ∧ rest = rest' := by
  induction xs generalizing ys with
  | nil =>
    cases ys with
    | nil => exact ⟨rfl, h⟩
    | cons y ys =>
      rw [List.nil_append] at h
      have hy := hrest y (by simp [h])
      rw [hys y (by simp)] at hy
      cases hy
  | cons x xs ih =>
    cases ys with
    | nil =>
      rw [List.nil_append] at h
      have hx := hrest' x (by simp [← h])
      rw [hxs x (by simp)] at hx
      cases hx
    | cons y ys =>
      rw [List.cons_append, List.cons_append, List.cons.injEq] at h
      rw [List.forall_mem_cons] at hxs hys
      obtain ⟨htail, hend⟩ := ih hxs.2 hys.2 h.2
      exact ⟨by rw [h.1, htail], hend⟩

theorem int_inj {n n' : Int} {rest rest' : List Char} (hrest : Ends rest) (hrest' : Ends rest')
    (h : (toString n).toList ++ rest = (toString n').toList ++ rest') :
    n = n' ∧ rest = rest' := by
  obtain ⟨hchars, hend⟩ := append_inj_of_head (fun _ => isNumeral_of_mem)
    (fun _ => isNumeral_of_mem) hrest.not_isNumeral hrest'.not_isNumeral h
  exact ⟨Int.repr_injective (String.toList_inj.1 hchars), hend⟩

/-! ## Values -/

/-! ### What is written, form by form -/

theorem renderAt_null (depth : Nat) : renderAt .unicode depth null = "null" := rfl

theorem renderAt_bool (depth : Nat) (b : Bool) :
    renderAt .unicode depth (bool b) = if b then "true" else "false" := by
  cases b <;> rfl

theorem renderAt_int (depth : Nat) (n : Int) : renderAt .unicode depth (int n) = toString n := rfl

theorem renderAt_text (depth : Nat) (s : String) :
    renderAt .unicode depth (text s) = quote .unicode s := rfl

theorem renderAt_list_nil (depth : Nat) : renderAt .unicode depth (list []) = "[]" := rfl

theorem renderAt_list_cons (depth : Nat) (x : JsonValue) (xs : List JsonValue) :
    renderAt .unicode depth (list (x :: xs)) =
      "[" ++ newline (depth + 1) ++ renderAt .unicode (depth + 1) x ++
        renderItems .unicode (depth + 1) xs ++ newline depth ++ "]" := rfl

theorem renderAt_object_nil (depth : Nat) :
    renderAt .unicode depth (object []) = "\x7b\x7d" := rfl

theorem renderAt_object_cons (depth : Nat) (field : String × JsonValue)
    (fields : List (String × JsonValue)) :
    renderAt .unicode depth (object (field :: fields)) =
      "\x7b" ++ newline (depth + 1) ++ quote .unicode field.1 ++ ": " ++
        renderAt .unicode (depth + 1) field.2 ++ renderFields .unicode (depth + 1) fields ++
        newline depth ++ "\x7d" := rfl

theorem renderItems_cons (depth : Nat) (x : JsonValue) (xs : List JsonValue) :
    renderItems .unicode depth (x :: xs) =
      "," ++ newline depth ++ renderAt .unicode depth x ++ renderItems .unicode depth xs := rfl

theorem renderFields_cons (depth : Nat) (field : String × JsonValue)
    (fields : List (String × JsonValue)) :
    renderFields .unicode depth (field :: fields) =
      "," ++ newline depth ++ quote .unicode field.1 ++ ": " ++
        renderAt .unicode depth field.2 ++ renderFields .unicode depth fields := rfl

theorem toList_newline (depth : Nat) :
    (newline depth).toList = '\n' :: List.replicate (2 * depth) ' ' := by
  rw [newline, String.toList_ofList]

/-! ### The first character -/

/-- The forms of values. -/
inductive Form where
  | null
  | bool
  | int
  | text
  | list
  | object
deriving DecidableEq, Repr

/-- The form of a value. -/
def form : JsonValue → Form
  | null => .null
  | bool _ => .bool
  | int _ => .int
  | text _ => .text
  | list _ => .list
  | object _ => .object

/-- The form of the values whose text begins with a given character. -/
def Form.ofOpening (c : Char) : Form :=
  if c = 'n' then .null
  else if c = 't' ∨ c = 'f' then .bool
  else if c = '"' then .text
  else if c = '[' then .list
  else if c = '\x7b' then .object
  else .int

theorem ofOpening_of_isNumeral {c : Char} (h : isNumeral c = true) : Form.ofOpening c = .int := by
  have hne : ∀ d, isNumeral d = false → c ≠ d := by
    rintro d hd rfl
    rw [h] at hd
    cases hd
  simp [Form.ofOpening, hne 'n' (by decide), hne 't' (by decide), hne 'f' (by decide),
    hne '"' (by decide), hne '[' (by decide), hne '\x7b' (by decide)]

theorem toString_int_ne_nil (n : Int) : (toString n).toList ≠ [] := by
  rw [Int.toString_eq_repr, Int.repr_eq_if]
  split
  · rw [Nat.toList_repr]
    exact Nat.toDigits_ne_nil
  · simp

/-- The first character of a text tells the form of the value. -/
theorem opening_renderAt (depth : Nat) (v : JsonValue) :
    (renderAt .unicode depth v).toList.head?.map Form.ofOpening = some v.form := by
  cases v with
  | null =>
    rw [renderAt_null]
    rfl
  | bool b =>
    rw [renderAt_bool]
    cases b <;> rfl
  | int n =>
    obtain ⟨c, rest, hchars⟩ := List.exists_cons_of_ne_nil (toString_int_ne_nil n)
    have hc : c ∈ (toString n).toList := by
      rw [hchars]
      exact List.mem_cons_self
    rw [renderAt_int, hchars]
    exact congrArg some (ofOpening_of_isNumeral (isNumeral_of_mem hc))
  | text s =>
    rw [renderAt_text, toList_quote]
    rfl
  | list xs =>
    cases xs with
    | nil =>
      rw [renderAt_list_nil]
      rfl
    | cons x xs =>
      rw [renderAt_list_cons]
      simp only [String.toList_append, List.append_assoc]
      rfl
  | object fields =>
    cases fields with
    | nil =>
      rw [renderAt_object_nil]
      rfl
    | cons field fields =>
      rw [renderAt_object_cons]
      simp only [String.toList_append, List.append_assoc]
      rfl

theorem form_of_render {depth : Nat} {v w : JsonValue} {rest rest' : List Char}
    (h : (renderAt .unicode depth v).toList ++ rest =
      (renderAt .unicode depth w).toList ++ rest') : v.form = w.form := by
  obtain ⟨c, hc, hform⟩ := Option.map_eq_some_iff.1 (opening_renderAt depth v)
  obtain ⟨d, hd, hform'⟩ := Option.map_eq_some_iff.1 (opening_renderAt depth w)
  have hopening := congrArg List.head? h
  rw [List.head?_append, List.head?_append, hc, hd, Option.some_or, Option.some_or,
    Option.some.injEq] at hopening
  rw [← hform, ← hform', hopening]

/-! ### What stands between brackets -/

theorem toList_renderItems_cons (depth : Nat) (x : JsonValue) (xs : List JsonValue)
    (rest : List Char) :
    (renderItems .unicode depth (x :: xs)).toList ++ rest =
      ',' :: ((newline depth).toList ++ ((renderAt .unicode depth x).toList ++
        ((renderItems .unicode depth xs).toList ++ rest))) := by
  rw [renderItems_cons]
  simp only [String.toList_append, List.append_assoc]
  rfl

theorem toList_renderFields_cons (depth : Nat) (field : String × JsonValue)
    (fields : List (String × JsonValue)) (rest : List Char) :
    (renderFields .unicode depth (field :: fields)).toList ++ rest =
      ',' :: ((newline depth).toList ++ ((quote .unicode field.1).toList ++
        (": ".toList ++ ((renderAt .unicode depth field.2).toList ++
          ((renderFields .unicode depth fields).toList ++ rest))))) := by
  rw [renderFields_cons]
  simp only [String.toList_append, List.append_assoc]
  rfl

/-- The elements of a list are written with a comma before each but the first. -/
theorem tail_renderAt_list (depth : Nat) (x : JsonValue) (xs : List JsonValue)
    (rest : List Char) :
    ',' :: ((renderAt .unicode depth (list (x :: xs))).toList ++ rest).tail =
      (renderItems .unicode (depth + 1) (x :: xs)).toList ++
        ((newline depth).toList ++ ']' :: rest) := by
  rw [toList_renderItems_cons, renderAt_list_cons]
  simp only [String.toList_append, List.append_assoc]
  rfl

/-- The fields of an object are written with a comma before each but the first. -/
theorem tail_renderAt_object (depth : Nat) (field : String × JsonValue)
    (fields : List (String × JsonValue)) (rest : List Char) :
    ',' :: ((renderAt .unicode depth (object (field :: fields))).toList ++ rest).tail =
      (renderFields .unicode (depth + 1) (field :: fields)).toList ++
        ((newline depth).toList ++ '\x7d' :: rest) := by
  rw [toList_renderFields_cons, renderAt_object_cons]
  simp only [String.toList_append, List.append_assoc]
  rfl

/-- A list without elements is closed at once, and any other goes on on the next line. -/
theorem renderAt_list_nil_ne (depth : Nat) (x : JsonValue) (xs : List JsonValue)
    (rest rest' : List Char) :
    (renderAt .unicode depth (list [])).toList ++ rest ≠
      (renderAt .unicode depth (list (x :: xs))).toList ++ rest' := by
  intro h
  rw [renderAt_list_nil, renderAt_list_cons] at h
  simp only [String.toList_append, List.append_assoc, toList_newline] at h
  have hsecond := congrArg (fun text => text[1]?) h
  cases hsecond

theorem renderAt_object_nil_ne (depth : Nat) (field : String × JsonValue)
    (fields : List (String × JsonValue)) (rest rest' : List Char) :
    (renderAt .unicode depth (object [])).toList ++ rest ≠
      (renderAt .unicode depth (object (field :: fields))).toList ++ rest' := by
  intro h
  rw [renderAt_object_nil, renderAt_object_cons] at h
  simp only [String.toList_append, List.append_assoc, toList_newline] at h
  have hsecond := congrArg (fun text => text[1]?) h
  cases hsecond

/-- What closes a list or an object begins a line. -/
def Closes (rest : List Char) : Prop := ∃ more, rest = '\n' :: more

theorem closes_newline (depth : Nat) (rest : List Char) :
    Closes ((newline depth).toList ++ rest) := by
  rw [toList_newline]
  exact ⟨_, rfl⟩

theorem Closes.ends {rest : List Char} (h : Closes rest) : Ends rest := by
  obtain ⟨more, rfl⟩ := h
  intro c hc
  exact Or.inr (Option.some.inj hc).symm

theorem ends_renderItems (depth : Nat) (xs : List JsonValue) {rest : List Char}
    (h : Closes rest) : Ends ((renderItems .unicode depth xs).toList ++ rest) := by
  cases xs with
  | nil => exact h.ends
  | cons x xs =>
    rw [toList_renderItems_cons]
    intro c hc
    exact Or.inl (Option.some.inj hc).symm

theorem ends_renderFields (depth : Nat) (fields : List (String × JsonValue)) {rest : List Char}
    (h : Closes rest) : Ends ((renderFields .unicode depth fields).toList ++ rest) := by
  cases fields with
  | nil => exact h.ends
  | cons field fields =>
    rw [toList_renderFields_cons]
    intro c hc
    exact Or.inl (Option.some.inj hc).symm

/-! ### Values can be read back -/

/-- The text of a value determines the value, whatever follows it. -/
def ReadBack (v : JsonValue) : Prop :=
  ∀ (depth : Nat) (w : JsonValue) (rest rest' : List Char), Ends rest → Ends rest' →
    (renderAt .unicode depth v).toList ++ rest = (renderAt .unicode depth w).toList ++ rest' →
      v = w ∧ rest = rest'

/-- The text of further elements determines them. -/
def ItemsReadBack (xs : List JsonValue) : Prop :=
  ∀ (depth : Nat) (ys : List JsonValue) (rest rest' : List Char), Closes rest → Closes rest' →
    (renderItems .unicode depth xs).toList ++ rest =
        (renderItems .unicode depth ys).toList ++ rest' →
      xs = ys ∧ rest = rest'

/-- The text of further fields determines them. -/
def FieldsReadBack (fields : List (String × JsonValue)) : Prop :=
  ∀ (depth : Nat) (fields' : List (String × JsonValue)) (rest rest' : List Char),
    Closes rest → Closes rest' →
    (renderFields .unicode depth fields).toList ++ rest =
        (renderFields .unicode depth fields').toList ++ rest' →
      fields = fields' ∧ rest = rest'

theorem readBack_null : ReadBack null := by
  intro depth w rest rest' _ _ h
  have hform := form_of_render h
  cases w with
  | null => exact ⟨rfl, List.append_cancel_left h⟩
  | _ => cases hform

theorem readBack_bool (b : Bool) : ReadBack (bool b) := by
  intro depth w rest rest' _ _ h
  have hform := form_of_render h
  cases w with
  | bool b' =>
    cases b with
    | false =>
      cases b' with
      | false => exact ⟨rfl, List.append_cancel_left h⟩
      | true => simp [renderAt_bool] at h
    | true =>
      cases b' with
      | false => simp [renderAt_bool] at h
      | true => exact ⟨rfl, List.append_cancel_left h⟩
  | _ => cases hform

theorem readBack_int (n : Int) : ReadBack (int n) := by
  intro depth w rest rest' hrest hrest' h
  have hform := form_of_render h
  cases w with
  | int n' =>
    rw [renderAt_int, renderAt_int] at h
    obtain ⟨hn, hend⟩ := int_inj hrest hrest' h
    exact ⟨congrArg int hn, hend⟩
  | _ => cases hform

theorem readBack_text (s : String) : ReadBack (text s) := by
  intro depth w rest rest' _ _ h
  have hform := form_of_render h
  cases w with
  | text s' =>
    rw [renderAt_text, renderAt_text] at h
    obtain ⟨hs, hend⟩ := quote_inj h
    exact ⟨congrArg text hs, hend⟩
  | _ => cases hform

theorem readBack_list {xs : List JsonValue} (hxs : ItemsReadBack xs) : ReadBack (list xs) := by
  intro depth w rest rest' _ _ h
  have hform := form_of_render h
  cases w with
  | list ys =>
    cases xs with
    | nil =>
      cases ys with
      | nil => exact ⟨rfl, List.append_cancel_left h⟩
      | cons y ys => exact absurd h (renderAt_list_nil_ne depth y ys rest rest')
    | cons x xs =>
      cases ys with
      | nil => exact absurd h.symm (renderAt_list_nil_ne depth x xs rest' rest)
      | cons y ys =>
        have hitems := congrArg (fun text => ',' :: text.tail) h
        simp only [tail_renderAt_list] at hitems
        obtain ⟨hsame, hend⟩ := hxs _ (y :: ys) _ _ (closes_newline _ _) (closes_newline _ _)
          hitems
        exact ⟨congrArg list hsame, (List.cons.inj (List.append_cancel_left hend)).2⟩
  | _ => cases hform

theorem readBack_object {fields : List (String × JsonValue)} (hfields : FieldsReadBack fields) :
    ReadBack (object fields) := by
  intro depth w rest rest' _ _ h
  have hform := form_of_render h
  cases w with
  | object fields' =>
    cases fields with
    | nil =>
      cases fields' with
      | nil => exact ⟨rfl, List.append_cancel_left h⟩
      | cons field' fields' =>
        exact absurd h (renderAt_object_nil_ne depth field' fields' rest rest')
    | cons field fields =>
      cases fields' with
      | nil => exact absurd h.symm (renderAt_object_nil_ne depth field fields rest' rest)
      | cons field' fields' =>
        have hmore := congrArg (fun text => ',' :: text.tail) h
        simp only [tail_renderAt_object] at hmore
        obtain ⟨hsame, hend⟩ := hfields _ (field' :: fields') _ _ (closes_newline _ _)
          (closes_newline _ _) hmore
        exact ⟨congrArg object hsame, (List.cons.inj (List.append_cancel_left hend)).2⟩
  | _ => cases hform

theorem itemsReadBack_nil : ItemsReadBack [] := by
  intro depth ys rest rest' hrest _ h
  cases ys with
  | nil => exact ⟨rfl, List.append_cancel_left h⟩
  | cons y ys =>
    obtain ⟨more, rfl⟩ := hrest
    rw [toList_renderItems_cons] at h
    cases h

theorem itemsReadBack_cons {x : JsonValue} {xs : List JsonValue} (hx : ReadBack x)
    (hxs : ItemsReadBack xs) : ItemsReadBack (x :: xs) := by
  intro depth ys rest rest' hrest hrest' h
  cases ys with
  | nil =>
    obtain ⟨more, rfl⟩ := hrest'
    rw [toList_renderItems_cons] at h
    cases h
  | cons y ys =>
    rw [toList_renderItems_cons, toList_renderItems_cons] at h
    obtain ⟨hhead, htail⟩ := hx _ _ _ _ (ends_renderItems depth xs hrest)
      (ends_renderItems depth ys hrest') (List.append_cancel_left (List.cons.inj h).2)
    obtain ⟨hsame, hend⟩ := hxs _ _ _ _ hrest hrest' htail
    exact ⟨by rw [hhead, hsame], hend⟩

theorem fieldsReadBack_nil : FieldsReadBack [] := by
  intro depth fields' rest rest' hrest _ h
  cases fields' with
  | nil => exact ⟨rfl, List.append_cancel_left h⟩
  | cons field' fields' =>
    obtain ⟨more, rfl⟩ := hrest
    rw [toList_renderFields_cons] at h
    cases h

theorem fieldsReadBack_cons {field : String × JsonValue} {fields : List (String × JsonValue)}
    (hvalue : ReadBack field.2) (hfields : FieldsReadBack fields) :
    FieldsReadBack (field :: fields) := by
  intro depth fields' rest rest' hrest hrest' h
  cases fields' with
  | nil =>
    obtain ⟨more, rfl⟩ := hrest'
    rw [toList_renderFields_cons] at h
    cases h
  | cons field' fields' =>
    rw [toList_renderFields_cons, toList_renderFields_cons] at h
    obtain ⟨hkey, hafter⟩ := quote_inj (List.append_cancel_left (List.cons.inj h).2)
    obtain ⟨hsame, htail⟩ := hvalue _ _ _ _ (ends_renderFields depth fields hrest)
      (ends_renderFields depth fields' hrest') (List.append_cancel_left hafter)
    obtain ⟨hmore, hend⟩ := hfields _ _ _ _ hrest hrest' htail
    exact ⟨by rw [Prod.ext hkey hsame, hmore], hend⟩

mutual

theorem readBack : (v : JsonValue) → ReadBack v
  | .null => readBack_null
  | .bool b => readBack_bool b
  | .int n => readBack_int n
  | .text s => readBack_text s
  | .list xs => readBack_list (itemsReadBack xs)
  | .object fields => readBack_object (fieldsReadBack fields)

theorem itemsReadBack : (xs : List JsonValue) → ItemsReadBack xs
  | [] => itemsReadBack_nil
  | x :: xs => itemsReadBack_cons (readBack x) (itemsReadBack xs)

theorem fieldsReadBack : (fields : List (String × JsonValue)) → FieldsReadBack fields
  | [] => fieldsReadBack_nil
  | (_, x) :: fields => fieldsReadBack_cons (readBack x) (fieldsReadBack fields)

end

/-- A text is the text of one value only. -/
theorem render_inj {v w : JsonValue} (h : v.render .unicode = w.render .unicode) : v = w := by
  have hends : Ends [] := fun _ hc => nomatch hc
  have htext := congrArg (fun text => text.toList ++ []) h
  exact (readBack v 0 w [] [] hends hends htext).1

theorem ofText?_inj {s s' : Option String} (h : ofText? s = ofText? s') : s = s' := by
  cases s with
  | none =>
    cases s' with
    | none => rfl
    | some text' => cases h
  | some text =>
    cases s' with
    | none => cases h
    | some text' => exact congrArg some (JsonValue.text.inj h)

end JsonValue

/-! ## Reports -/

theorem LocationReport.json_inj {r r' : LocationReport} (h : r.json = r'.json) : r = r' := by
  obtain ⟨file, line, column, text⟩ := r
  obtain ⟨file', line', column', text'⟩ := r'
  simpa [json] using h

theorem ViolationReport.json_inj {r r' : ViolationReport} (h : r.json = r'.json) : r = r' := by
  obtain ⟨kind, message, locations, file⟩ := r
  obtain ⟨kind', message', locations', file'⟩ := r'
  simp only [json, JsonValue.object.injEq, List.cons.injEq, Prod.mk.injEq, JsonValue.text.injEq,
    JsonValue.list.injEq, true_and, and_true] at h
  obtain ⟨hkind, hmessage, hlocations, hfile⟩ := h
  have hinj : Function.Injective LocationReport.json := fun _ _ => LocationReport.json_inj
  rw [hkind, hmessage, List.map_injective_iff.2 hinj hlocations, JsonValue.ofText?_inj hfile]

theorem Mode.name_inj {m m' : Mode} (h : m.name = m'.name) : m = m' := by
  cases m with
  | headerOnly =>
    cases m' with
    | headerOnly => rfl
    | split => simp [name] at h
  | split =>
    cases m' with
    | headerOnly => simp [name] at h
    | split => rfl

theorem PairReport.json_inj {r r' : PairReport} (h : r.json = r'.json) : r = r' := by
  obtain ⟨header, source, mode, ok, violation, error⟩ := r
  obtain ⟨header', source', mode', ok', violation', error'⟩ := r'
  simp only [json, JsonValue.object.injEq, List.cons.injEq, Prod.mk.injEq, JsonValue.text.injEq,
    JsonValue.bool.injEq, true_and, and_true] at h
  obtain ⟨hheader, hsource, hmode, hok, hviolation, herror⟩ := h
  have hsame : violation = violation' := by
    cases violation with
    | none =>
      cases violation' with
      | none => rfl
      | some v' => cases hviolation
    | some v =>
      cases violation' with
      | none => cases hviolation
      | some v' => rw [ViolationReport.json_inj hviolation]
  rw [hheader, hsource, Mode.name_inj hmode, hok, hsame, JsonValue.ofText?_inj herror]

/-- **Reports can be read back.**  The JSON text of a report on a pair is the text of no other
report. -/
theorem PairReport.render_inj {r r' : PairReport}
    (h : r.json.render .unicode = r'.json.render .unicode) : r = r' :=
  json_inj (JsonValue.render_inj h)

end PrototypeOrder
