import Mathlib.Data.List.Basic
import RemoteImports.Text.Quoted

/-!
# Reading written forms back

A reader takes a value off the start of a text and gives it back with what follows. `quoted?` undoes
`quote` whatever the text holds and whatever follows it (`quoted?_quote`), since inside the quotes
every quotation mark stands behind a backslash. `items` undoes the joining with a comma and a blank
between the items, if each item can be read in front of a separator and in front of what closes the
list (`items_intercalate`).
-/

namespace RemoteImports.Text

/-! ## Quoted texts -/

/-- The character that a letter behind a backslash stands for. -/
def escaped? : Char → Option Char
  | '"' => some '"'
  | '\\' => some '\\'
  | '/' => some '/'
  | 'b' => some (Char.ofNat 8)
  | 'f' => some (Char.ofNat 12)
  | 'n' => some '\n'
  | 'r' => some '\r'
  | 't' => some '\t'
  | _ => none

/-- What a quoted text stands for, up to the mark that closes it, and what follows that mark. The
opening mark is no part of the text. Control characters have to be escaped, and `\u` stands before
the four digits of a character that is no surrogate. -/
def quotedBody? : List Char → Option (List Char × List Char)
  | '"' :: rest => some ([], rest)
  | '\\' :: 'u' :: a :: b :: c :: d :: rest =>
    (scalar? [a, b, c, d]).bind fun x => (quotedBody? rest).map (Prod.map (x :: ·) id)
  | '\\' :: c :: rest =>
    (escaped? c).bind fun x => (quotedBody? rest).map (Prod.map (x :: ·) id)
  | c :: rest =>
    if c = '\\' ∨ c.toNat < 0x20 then none else (quotedBody? rest).map (Prod.map (c :: ·) id)
  | [] => none

/-- The text that is quoted at the start of a text, and what follows it. -/
def quoted? : List Char → Option (String × List Char)
  | '"' :: rest => (quotedBody? rest).map (Prod.map String.ofList id)
  | _ => none

theorem hexValue?_hexDigits :
    ∀ n < 0x20, hexValue? ['0', '0', hexDigit (n / 16), hexDigit (n % 16)] = some n := by
  decide

theorem scalar?_hexDigits {c : Char} (hc : c.toNat < 0x20) :
    scalar? ['0', '0', hexDigit (c.toNat / 16), hexDigit (c.toNat % 16)] = some c := by
  have hvalid : c.toNat.isValidChar := c.valid
  have hchar := Char.ofNat_toNat c
  rw [Char.ofNat, dif_pos hvalid] at hchar
  rw [scalar?, hexValue?_hexDigits _ hc, Option.bind_some, dif_pos hvalid, hchar]

/-- The escaped form of a character is read as that character. -/
theorem quotedBody?_escape (c : Char) (rest : List Char) :
    quotedBody? (escape c ++ rest) = (quotedBody? rest).map (Prod.map (c :: ·) id) := by
  have hcode {n : ℕ} (h : c.toNat = n) : c = Char.ofNat n := by rw [← h, Char.ofNat_toNat]
  unfold escape
  split_ifs with hquote hbackslash hc hc hc hc hc hc
  · subst hquote
    rfl
  · subst hbackslash
    rfl
  -- the control characters with an escape sequence of one letter
  iterate 5
    rw [hcode hc]
    rfl
  · simp only [List.cons_append, List.nil_append]
    rw [quotedBody?, scalar?_hexDigits hc, Option.bind_some]
  · rw [List.singleton_append, quotedBody?, if_neg (not_or.2 ⟨hbackslash, hc⟩)]
    · exact hquote
    · intro _ _ _ _ _ h
      exact absurd h hbackslash
    · intro _ _ h
      exact absurd h hbackslash

theorem quotedBody?_flatMap_escape (text rest : List Char) :
    quotedBody? (text.flatMap escape ++ '"' :: rest) = some (text, rest) := by
  induction text with
  | nil => rfl
  | cons c text ih =>
    rw [List.flatMap_cons, List.append_assoc, quotedBody?_escape, ih]
    rfl

/-- **A quoted text is read back**, whatever it holds and whatever follows it. -/
theorem quoted?_quote (text : String) (rest : List Char) :
    quoted? ((quote text).toList ++ rest) = some (text, rest) := by
  have hbody := quotedBody?_flatMap_escape text.toList rest
  simp only [quote, String.toList_ofList, quoteChars, List.cons_append, List.append_assoc,
    List.nil_append]
  rw [quoted?, hbody, Option.map_some, Prod.map_apply, String.ofList_toList, id_eq]

/-! ## Lists -/

theorem isPrefixOf?_append (start rest : List Char) :
    start.isPrefixOf? (start ++ rest) = some rest :=
  List.isPrefixOf?_eq_some_iff_append_eq.2 rfl

variable {α : Type*}

/-- The items at the start of a text, with a comma and a blank between them, and what follows the
last one. -/
def items (item? : List Char → Option (α × List Char)) (text : List Char) : List α × List Char :=
  match item? text with
  | none => ([], text)
  | some (item, rest) =>
    match [',', ' '].isPrefixOf? rest with
    | none => ([item], rest)
    | some more =>
      if more.length < text.length then (items item? more).map (item :: ·) id else ([item], rest)
termination_by text.length

/-- **A joined list is read back.** Here `ends` says where an item can be read: in front of a
separator and in front of what closes the list. -/
theorem items_intercalate (ends : List Char → Prop) {item? : List Char → Option (α × List Char)}
    {write : α → String} {list : List α} {close : List Char}
    (hitem : ∀ a ∈ list, ∀ rest, ends rest → item? ((write a).toList ++ rest) = some (a, rest))
    (hcomma : ∀ more, ends (',' :: ' ' :: more)) (hends : ends close)
    (hnone : item? close = none) (hclose : [',', ' '].isPrefixOf? close = none) :
    items item? ((", ".intercalate (list.map write)).toList ++ close) = (list, close) := by
  induction list with
  | nil =>
    rw [items]
    simp [hnone]
  | cons a list ih =>
    cases list with
    | nil =>
      rw [items]
      simp [hitem a List.mem_cons_self close hends, hclose]
    | cons b list =>
      have htext : (", ".intercalate ((a :: b :: list).map write)).toList ++ close =
          (write a).toList ++
            ',' :: ' ' :: ((", ".intercalate ((b :: list).map write)).toList ++ close) := by
        simp
      have hrest := ih fun c hc => hitem c (List.mem_cons_of_mem a hc)
      have hsep (more : List Char) : [',', ' '].isPrefixOf? (',' :: ' ' :: more) = some more :=
        isPrefixOf?_append [',', ' '] more
      rw [htext, items, hitem a List.mem_cons_self _ (hcomma _)]
      simp only [hsep]
      rw [if_pos, hrest]
      · rfl
      · simp only [List.length_append, List.length_cons]
        omega

end RemoteImports.Text
