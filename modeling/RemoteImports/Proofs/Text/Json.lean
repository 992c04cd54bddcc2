import Mathlib.Data.List.Basic
import RemoteImports.Proofs.OsString
import RemoteImports.Proofs.Text.Reading
import RemoteImports.Text.JsonValue

/-!
# Reading documents back

The grammar of written documents: whole numbers, quoted texts, arrays and objects, with any blanks
between the signs (`JsonValue.IsText`). A value is written completely if all of it can be written
(`complete_render_iff`), and then what reports write is one of its texts (`isText_render`). A reader
takes a value off the start of a text, and every text of a value is read as that value, whatever
follows it (`value?_of_isText`), so no text stands for two values (`IsText.unique`). The grammar is
a part of the JSON data format: it has no negative numbers, no fractions and no literal names, and
inside quotes a character beyond the first 65536 stands for itself.
-/

namespace RemoteImports

/-! ## Quoted texts -/

namespace Text

/-- The ways to write a text between quotation marks. -/
inductive IsQuotedBody : List Char → List Char → Prop
  | nil : IsQuotedBody [] []
  | plain {c : Char} {text body : List Char} (hquote : c ≠ '"') (hbackslash : c ≠ '\\')
      (hcontrol : 0x20 ≤ c.toNat) (h : IsQuotedBody text body) :
      IsQuotedBody (c :: text) (c :: body)
  | short {c letter : Char} {text body : List Char} (hletter : escaped? letter = some c)
      (h : IsQuotedBody text body) : IsQuotedBody (c :: text) ('\\' :: letter :: body)
  | code {c d₁ d₂ d₃ d₄ : Char} {text body : List Char}
      (hcode : scalar? [d₁, d₂, d₃, d₄] = some c) (h : IsQuotedBody text body) :
      IsQuotedBody (c :: text) ('\\' :: 'u' :: d₁ :: d₂ :: d₃ :: d₄ :: body)

/-- The ways to write a text with its quotation marks. -/
def IsQuoted (text : String) (quoted : List Char) : Prop :=
  ∃ body, IsQuotedBody text.toList body ∧ quoted = '"' :: (body ++ ['"'])

/-- An escaped character is one of the ways to write it. -/
theorem IsQuotedBody.escape {text body : List Char} (h : IsQuotedBody text body) (c : Char) :
    IsQuotedBody (c :: text) (Text.escape c ++ body) := by
  have hcode {n : ℕ} (h : c.toNat = n) : c = Char.ofNat n := by rw [← h, Char.ofNat_toNat]
  unfold Text.escape
  split_ifs with hquote hbackslash hc hc hc hc hc hc
  · subst hquote
    exact .short rfl h
  · subst hbackslash
    exact .short rfl h
  -- the control characters with an escape sequence of one letter
  iterate 5
    obtain rfl := hcode hc
    exact .short rfl h
  · exact .code (scalar?_hexDigits hc) h
  · exact .plain hquote hbackslash (Nat.le_of_not_lt hc) h

theorem isQuotedBody_flatMap_escape (text : List Char) :
    IsQuotedBody text (text.flatMap Text.escape) := by
  induction text with
  | nil => exact .nil
  | cons c text ih =>
    rw [List.flatMap_cons]
    exact ih.escape c

theorem isQuoted_quote (text : String) : IsQuoted text (quote text).toList :=
  ⟨text.toList.flatMap escape, isQuotedBody_flatMap_escape text.toList, String.toList_ofList⟩

theorem quotedBody?_of_isQuotedBody {text body : List Char} (h : IsQuotedBody text body)
    (rest : List Char) : quotedBody? (body ++ '"' :: rest) = some (text, rest) := by
  induction h with
  | nil => rfl
  | plain hquote hbackslash hcontrol h ih =>
    rw [List.cons_append, quotedBody?, if_neg (not_or.2 ⟨hbackslash, Nat.not_lt.2 hcontrol⟩), ih]
    · rfl
    · exact hquote
    · exact fun _ _ _ _ _ hc => absurd hc hbackslash
    · exact fun _ _ hc => absurd hc hbackslash
  | short hletter h ih =>
    rw [List.cons_append, List.cons_append, quotedBody?, hletter, Option.bind_some, ih]
    · rfl
    · -- the letter of a code stands for nothing by itself
      rintro _ _ _ _ _ rfl
      cases hletter
  | code hcode h ih =>
    simp only [List.cons_append]
    rw [quotedBody?, hcode, Option.bind_some, ih]
    rfl

theorem quoted?_of_isQuoted {text : String} {quoted : List Char} (h : IsQuoted text quoted)
    (rest : List Char) : quoted? (quoted ++ rest) = some (text, rest) := by
  obtain ⟨body, hbody, rfl⟩ := h
  rw [List.cons_append, List.append_assoc, List.singleton_append, quoted?,
    quotedBody?_of_isQuotedBody hbody, Option.map_some, Prod.map_apply, String.ofList_toList, id_eq]

end Text

open Text

namespace JsonValue

/-! ## The grammar -/

/-- Whether a character can stand between the signs of a document. -/
def isBlank (c : Char) : Bool := c == ' ' || c == '\t' || c == '\n' || c == '\r'

/-- A text of blanks. -/
def IsGap (gap : List Char) : Prop := ∀ c ∈ gap, isBlank c = true

mutual

/-- The ways to write a value. -/
inductive IsText : JsonValue → List Char → Prop
  | nat (n : Nat) : IsText (.nat n) n.repr.toList
  | text {s : String} {quoted : List Char} (h : IsQuoted s quoted) : IsText (.text s) quoted
  | emptyArray {gap : List Char} (hgap : IsGap gap) : IsText (.array []) ('[' :: (gap ++ [']']))
  | array {item : JsonValue} {items : List JsonValue} {gap first more : List Char}
      (hgap : IsGap gap) (hfirst : IsText item first) (hmore : EndsArray items more) :
      IsText (.array (item :: items)) ('[' :: (gap ++ (first ++ more)))
  | emptyObject {gap : List Char} (hgap : IsGap gap) :
      IsText (.object []) ('\x7b' :: (gap ++ ['\x7d']))
  | object {field : String × JsonValue} {fields : List (String × JsonValue)}
      {gap first more : List Char} (hgap : IsGap gap) (hfirst : IsField field first)
      (hmore : EndsObject fields more) :
      IsText (.object (field :: fields)) ('\x7b' :: (gap ++ (first ++ more)))

/-- The ways to go on after the first item of an array. -/
inductive EndsArray : List JsonValue → List Char → Prop
  | close {gap : List Char} (hgap : IsGap gap) : EndsArray [] (gap ++ [']'])
  | item {item : JsonValue} {items : List JsonValue} {before gap first more : List Char}
      (hbefore : IsGap before) (hgap : IsGap gap) (hfirst : IsText item first)
      (hmore : EndsArray items more) :
      EndsArray (item :: items) (before ++ ',' :: (gap ++ (first ++ more)))

/-- The ways to write a field of an object. -/
inductive IsField : String × JsonValue → List Char → Prop
  | mk {key : String} {value : JsonValue} {quoted before gap text : List Char}
      (hkey : IsQuoted key quoted) (hbefore : IsGap before) (hgap : IsGap gap)
      (hvalue : IsText value text) :
      IsField (key, value) (quoted ++ (before ++ ':' :: (gap ++ text)))

/-- The ways to go on after the first field of an object. -/
inductive EndsObject : List (String × JsonValue) → List Char → Prop
  | close {gap : List Char} (hgap : IsGap gap) : EndsObject [] (gap ++ ['\x7d'])
  | field {field : String × JsonValue} {fields : List (String × JsonValue)}
      {before gap first more : List Char} (hbefore : IsGap before) (hgap : IsGap gap)
      (hfirst : IsField field first) (hmore : EndsObject fields more) :
      EndsObject (field :: fields) (before ++ ',' :: (gap ++ (first ++ more)))

end

/-- No object in a value names a field twice. -/
inductive DistinctKeys : JsonValue → Prop
  | nat (n : Nat) : DistinctKeys (.nat n)
  | text (s : String) : DistinctKeys (.text s)
  | unwritable : DistinctKeys .unwritable
  | array {items : List JsonValue} (h : ∀ item ∈ items, DistinctKeys item) :
      DistinctKeys (.array items)
  | object {fields : List (String × JsonValue)} (hkeys : (fields.map Prod.fst).Nodup)
      (h : ∀ field ∈ fields, DistinctKeys field.2) : DistinctKeys (.object fields)

/-- Every part of a value can be written. -/
inductive IsWritable : JsonValue → Prop
  | nat (n : Nat) : IsWritable (.nat n)
  | text (s : String) : IsWritable (.text s)
  | array {items : List JsonValue} (h : ∀ item ∈ items, IsWritable item) : IsWritable (.array items)
  | object {fields : List (String × JsonValue)} (h : ∀ field ∈ fields, IsWritable field.2) :
      IsWritable (.object fields)

theorem isWritable_array_iff {items : List JsonValue} :
    IsWritable (.array items) ↔ ∀ item ∈ items, IsWritable item :=
  ⟨fun | .array h => h, .array⟩

theorem isWritable_object_iff {fields : List (String × JsonValue)} :
    IsWritable (.object fields) ↔ ∀ field ∈ fields, IsWritable field.2 :=
  ⟨fun | .object h => h, .object⟩

theorem isWritable_ofOsString_iff {s : OsString} : IsWritable (ofOsString s) ↔ s.IsUnicode := by
  rw [OsString.isUnicode_iff_text?, ofOsString]
  cases s.text? with
  | none => exact iff_of_false nofun nofun
  | some t => exact iff_of_true (.text t) rfl

/-! ## Complete documents -/

section Complete

variable {first next : Written}

theorem complete_append : (first ++ next).complete ↔ first.complete ∧ next.complete := by
  change (if first.complete then _ else first).complete ↔ _
  split_ifs with h
  · exact (and_iff_right h).symm
  · exact iff_of_false h fun hboth => h hboth.1

theorem text_append (h : first.complete) : (first ++ next).text = first.text ++ next.text := by
  change (if first.complete then _ else first).text = _
  rw [if_pos h]

end Complete

mutual

/-- **A value is written completely** if all of it can be written, and only then. -/
theorem complete_render_iff (level : Nat) :
    ∀ value : JsonValue, (render level value).complete ↔ IsWritable value
  | .nat n => iff_of_true rfl (.nat n)
  | .text s => iff_of_true rfl (.text s)
  | .unwritable => iff_of_false nofun nofun
  | .array [] => iff_of_true rfl (.array nofun)
  | .array (item :: items) => by
    have hfirst := complete_render_iff (level + 1) item
    have hmore := complete_renderItems_iff (level + 1) items
    simp [render, complete_append, isWritable_array_iff, hfirst, hmore]
  | .object [] => iff_of_true rfl (.object nofun)
  | .object ((key, value) :: fields) => by
    have hfirst := complete_render_iff (level + 1) value
    have hmore := complete_renderFields_iff (level + 1) fields
    simp [render, complete_append, isWritable_object_iff, hfirst, hmore]

theorem complete_renderItems_iff (level : Nat) :
    ∀ items : List JsonValue,
      (renderItems level items).complete ↔ ∀ item ∈ items, IsWritable item
  | [] => iff_of_true rfl nofun
  | item :: items => by
    have hfirst := complete_render_iff level item
    have hmore := complete_renderItems_iff level items
    simp [renderItems, complete_append, hfirst, hmore]

theorem complete_renderFields_iff (level : Nat) :
    ∀ fields : List (String × JsonValue),
      (renderFields level fields).complete ↔ ∀ field ∈ fields, IsWritable field.2
  | [] => iff_of_true rfl nofun
  | (key, value) :: fields => by
    have hfirst := complete_render_iff level value
    have hmore := complete_renderFields_iff level fields
    simp [renderFields, complete_append, hfirst, hmore]

end

/-! ## Written documents -/

theorem isGap_newLine (level : Nat) : IsGap (newLine level).toList := by
  intro c hc
  rw [newLine, String.toList_append, List.mem_append] at hc
  rcases hc with hc | hc
  · obtain rfl := List.mem_singleton.1 hc
    rfl
  · rw [String.toList_ofList] at hc
    obtain rfl := List.eq_of_mem_replicate hc
    rfl

theorem isGap_nil : IsGap [] := fun _ hc => absurd hc List.not_mem_nil

theorem isGap_space : IsGap [' '] := fun _ hc => List.mem_singleton.1 hc ▸ rfl

mutual

/-- **The written form of a value is one of its texts**, at every level of nesting. -/
theorem isText_render (level : Nat) :
    ∀ value : JsonValue, IsWritable value → IsText value (render level value).text.toList
  | .nat n, _ => .nat n
  | .text s, _ => .text (isQuoted_quote s)
  | .array [], _ => by
    rw [render]
    exact .emptyArray isGap_nil
  | .array (item :: items), h => by
    obtain ⟨hitem, hitems⟩ := List.forall_mem_cons.1 (isWritable_array_iff.1 h)
    have hfirst := (complete_render_iff (level + 1) item).2 hitem
    have hmore := (complete_renderItems_iff (level + 1) items).2 hitems
    have htext := IsText.array (isGap_newLine (level + 1)) (isText_render (level + 1) item hitem)
      (endsArray_renderItems (level + 1) (isGap_newLine level) items hitems)
    simpa [render, text_append, complete_append, hfirst, hmore] using htext
  | .object [], _ => by
    rw [render]
    exact .emptyObject isGap_nil
  | .object ((key, value) :: fields), h => by
    obtain ⟨hvalue, hfields⟩ := List.forall_mem_cons.1 (isWritable_object_iff.1 h)
    have hfirst := (complete_render_iff (level + 1) value).2 hvalue
    have hmore := (complete_renderFields_iff (level + 1) fields).2 hfields
    have hfield := IsField.mk (isQuoted_quote key) isGap_nil isGap_space
      (isText_render (level + 1) value hvalue)
    have htext := IsText.object (isGap_newLine (level + 1)) hfield
      (endsObject_renderFields (level + 1) (isGap_newLine level) fields hfields)
    simpa [render, text_append, complete_append, hfirst, hmore] using htext

theorem endsArray_renderItems (level : Nat) {gap : List Char} (hgap : IsGap gap) :
    ∀ items : List JsonValue, (∀ item ∈ items, IsWritable item) →
      EndsArray items ((renderItems level items).text.toList ++ (gap ++ [']']))
  | [], _ => .close hgap
  | item :: items, h => by
    obtain ⟨hitem, hitems⟩ := List.forall_mem_cons.1 h
    have hfirst := (complete_render_iff level item).2 hitem
    have hmore := EndsArray.item isGap_nil (isGap_newLine level) (isText_render level item hitem)
      (endsArray_renderItems level hgap items hitems)
    simpa [renderItems, text_append, complete_append, hfirst] using hmore

theorem endsObject_renderFields (level : Nat) {gap : List Char} (hgap : IsGap gap) :
    ∀ fields : List (String × JsonValue), (∀ field ∈ fields, IsWritable field.2) →
      EndsObject fields ((renderFields level fields).text.toList ++ (gap ++ ['\x7d']))
  | [], _ => .close hgap
  | (key, value) :: fields, h => by
    obtain ⟨hvalue, hfields⟩ := List.forall_mem_cons.1 h
    have hfirst := (complete_render_iff level value).2 hvalue
    have hfield := IsField.mk (isQuoted_quote key) isGap_nil isGap_space
      (isText_render level value hvalue)
    have hmore := EndsObject.field isGap_nil (isGap_newLine level) hfield
      (endsObject_renderFields level hgap fields hfields)
    simpa [renderFields, text_append, complete_append, hfirst] using hmore

end

/-! ## The reader -/

/-- What follows a sign at the start of a text, after blanks. -/
def sign? (sign : Char) (input : List Char) : Option (List Char) :=
  match input.dropWhile isBlank with
  | c :: rest => if c = sign then some rest else none
  | [] => none

/-- The whole number at the start of a text, as long as it goes and as numbers are written, and what
follows it. -/
def number? (input : List Char) : Option (JsonValue × List Char) :=
  let digits := input.takeWhile Char.isDigit
  let n := Nat.ofDigitChars 10 digits 0
  if n.repr.toList = digits then some (.nat n, input.dropWhile Char.isDigit) else none

section Entries

variable {α : Type}

/-- The entries after the first one up to the sign that closes them, at most so many, and what
follows that sign. -/
def moreEntries? (close : Char) (one? : List Char → Option (α × List Char)) :
    Nat → List Char → Option (List α × List Char)
  | 0, _ => none
  | bound + 1, input =>
    match sign? close input with
    | some rest => some ([], rest)
    | none =>
      (sign? ',' input).bind fun rest =>
        (one? rest).bind fun (a, rest) =>
          (moreEntries? close one? bound rest).map (Prod.map (a :: ·) id)

/-- The entries up to the sign that closes them, and what follows that sign. -/
def entries? (close : Char) (one? : List Char → Option (α × List Char)) (bound : Nat)
    (input : List Char) : Option (List α × List Char) :=
  match sign? close input with
  | some rest => some ([], rest)
  | none =>
    (one? input).bind fun (a, rest) =>
      (moreEntries? close one? bound rest).map (Prod.map (a :: ·) id)

end Entries

/-- The field at the start of a text, after blanks, and what follows it. -/
def field? (value? : List Char → Option (JsonValue × List Char)) (input : List Char) :
    Option ((String × JsonValue) × List Char) :=
  (quoted? (input.dropWhile isBlank)).bind fun (key, rest) =>
    (sign? ':' rest).bind fun rest => (value? rest).map (Prod.map (key, ·) id)

/-- The value at the start of a text, after blanks, and what follows it. The bound is one on the
depth of nesting and on the number of entries. -/
def value? : Nat → List Char → Option (JsonValue × List Char)
  | 0, _ => none
  | bound + 1, input =>
    match input.dropWhile isBlank with
    | '"' :: rest => (quoted? ('"' :: rest)).map (Prod.map .text id)
    | '[' :: rest => (entries? ']' (value? bound) bound rest).map (Prod.map .array id)
    | '\x7b' :: rest =>
      (entries? '\x7d' (field? (value? bound)) bound rest).map (Prod.map .object id)
    | rest => number? rest

/-- The value of a document, which holds nothing else but blanks. -/
def read? (document : String) : Option JsonValue :=
  (value? document.length document.toList).bind fun (value, rest) =>
    if rest.all isBlank then some value else none

/-! ## Reading -/

variable {gap rest more : List Char} {c close : Char}

theorem dropWhile_isBlank (hgap : IsGap gap) (hc : isBlank c = false) (rest : List Char) :
    (gap ++ c :: rest).dropWhile isBlank = c :: rest := by
  rw [List.dropWhile_append_of_pos hgap, List.dropWhile_cons_of_neg (by simp [hc])]

theorem sign?_self (hgap : IsGap gap) (hc : isBlank c = false) (rest : List Char) :
    sign? c (gap ++ c :: rest) = some rest := by
  rw [sign?, dropWhile_isBlank hgap hc]
  exact if_pos rfl

theorem sign?_of_ne (hgap : IsGap gap) (hc : isBlank c = false) (hne : c ≠ close)
    (rest : List Char) : sign? close (gap ++ c :: rest) = none := by
  rw [sign?, dropWhile_isBlank hgap hc]
  exact if_neg hne

/-- What may follow a number: nothing that it could go on with. -/
def EndsNumber (rest : List Char) : Prop := ∀ c ∈ rest.head?, c.isDigit = false

theorem endsNumber_cons (hc : c.isDigit = false) : EndsNumber (c :: rest) := by
  simpa [EndsNumber] using hc

theorem isDigit_of_isBlank (h : isBlank c = true) : c.isDigit = false := by
  simp only [isBlank, Bool.or_eq_true, beq_iff_eq] at h
  rcases h with ((rfl | rfl) | rfl) | rfl <;> rfl

theorem isBlank_of_isDigit (h : c.isDigit = true) : isBlank c = false :=
  eq_false_of_ne_true fun hblank => absurd h (by rw [isDigit_of_isBlank hblank]; decide)

theorem endsNumber_gap (hgap : IsGap gap) (hc : c.isDigit = false) (rest : List Char) :
    EndsNumber (gap ++ c :: rest) := by
  cases gap with
  | nil => exact endsNumber_cons hc
  | cons b gap => exact endsNumber_cons (isDigit_of_isBlank (hgap b List.mem_cons_self))

theorem toList_repr (n : Nat) : n.repr.toList = Nat.toDigits 10 n := by
  rw [Nat.repr_eq_ofList_toDigits, String.toList_ofList]

theorem isDigit_of_mem_repr {n : Nat} (hc : c ∈ n.repr.toList) : c.isDigit = true := by
  rw [toList_repr] at hc
  exact Nat.isDigit_of_mem_toDigits (by decide) (by decide) hc

theorem exists_repr_eq_cons (n : Nat) : ∃ d digits, n.repr.toList = d :: digits := by
  rw [toList_repr]
  exact List.exists_cons_of_ne_nil Nat.toDigits_ne_nil

theorem number?_repr (n : Nat) (hrest : EndsNumber rest) :
    number? (n.repr.toList ++ rest) = some (.nat n, rest) := by
  have hall : ∀ c ∈ n.repr.toList, c.isDigit = true := fun c => isDigit_of_mem_repr
  have hends : rest.takeWhile Char.isDigit = [] ∧ rest.dropWhile Char.isDigit = rest := by
    cases rest with
    | nil => exact ⟨rfl, rfl⟩
    | cons c rest => simp [hrest c rfl]
  have hn : Nat.ofDigitChars 10 n.repr.toList 0 = n := by
    rw [toList_repr, Nat.ofDigitChars_ten_toDigits]
  rw [number?, List.takeWhile_append_of_pos hall, List.dropWhile_append_of_pos hall, hends.1,
    hends.2, List.append_nil, hn]
  exact if_pos rfl

/-! ## Entries -/

section Entries

variable {α : Type} {one? : List Char → Option (α × List Char)} {a : α} {as : List α}
  {bound : Nat} {input : List Char}

theorem moreEntries?_close (hgap : IsGap gap) (hclose : isBlank close = false) :
    moreEntries? close one? (bound + 1) (gap ++ close :: rest) = some ([], rest) := by
  rw [moreEntries?, sign?_self hgap hclose]

theorem moreEntries?_entry (hgap : IsGap gap) (hclose : ',' ≠ close)
    (hentry : one? input = some (a, more))
    (hmore : moreEntries? close one? bound more = some (as, rest)) :
    moreEntries? close one? (bound + 1) (gap ++ ',' :: input) = some (a :: as, rest) := by
  rw [moreEntries?, sign?_of_ne hgap rfl hclose]
  simp only
  rw [sign?_self hgap rfl, Option.bind_some, hentry, Option.bind_some, hmore]
  rfl

theorem entries?_close (hgap : IsGap gap) (hclose : isBlank close = false) :
    entries? close one? bound (gap ++ close :: rest) = some ([], rest) := by
  rw [entries?, sign?_self hgap hclose]

theorem entries?_entry (hgap : IsGap gap) (hc : isBlank c = false) (hclose : c ≠ close)
    (hentry : one? (gap ++ c :: input) = some (a, more))
    (hmore : moreEntries? close one? bound more = some (as, rest)) :
    entries? close one? bound (gap ++ c :: input) = some (a :: as, rest) := by
  rw [entries?, sign?_of_ne hgap hc hclose]
  simp only
  rw [hentry, Option.bind_some, hmore]
  rfl

end Entries

/-! ## Values -/

section Value

variable {bound : Nat}

theorem value?_quoted {s : String} {quoted : List Char} (hgap : IsGap gap) (h : IsQuoted s quoted) :
    value? (bound + 1) (gap ++ (quoted ++ rest)) = some (.text s, rest) := by
  have hread := quoted?_of_isQuoted h rest
  obtain ⟨body, -, rfl⟩ := h
  rw [List.cons_append] at hread ⊢
  rw [value?, dropWhile_isBlank hgap rfl]
  simp only
  rw [hread]
  rfl

theorem value?_nat (n : Nat) (hgap : IsGap gap) (hrest : EndsNumber rest) :
    value? (bound + 1) (gap ++ (n.repr.toList ++ rest)) = some (.nat n, rest) := by
  have hread := number?_repr n hrest
  obtain ⟨d, digits, hdigits⟩ := exists_repr_eq_cons n
  have hd : d.isDigit = true := isDigit_of_mem_repr (hdigits ▸ List.mem_cons_self)
  rw [hdigits, List.cons_append] at hread ⊢
  have hsign {sign : Char} {tail : List Char} (hnodigit : sign.isDigit = false) :
      d :: (digits ++ rest) ≠ sign :: tail := by
    intro h
    rw [(List.cons.inj h).1, hnodigit] at hd
    cases hd
  rw [value?, dropWhile_isBlank hgap (isBlank_of_isDigit hd)]
  split
  · exact absurd ‹_› (hsign rfl)
  · exact absurd ‹_› (hsign rfl)
  · exact absurd ‹_› (hsign rfl)
  · exact hread

theorem field?_eq {key : String} {value : JsonValue} {quoted before input : List Char}
    {read? : List Char → Option (JsonValue × List Char)} (hgap : IsGap gap)
    (hkey : IsQuoted key quoted) (hbefore : IsGap before)
    (hvalue : read? input = some (value, rest)) :
    field? read? (gap ++ (quoted ++ (before ++ ':' :: input))) = some ((key, value), rest) := by
  have hread := quoted?_of_isQuoted hkey (before ++ ':' :: input)
  obtain ⟨body, -, rfl⟩ := hkey
  rw [List.cons_append] at hread ⊢
  rw [field?, dropWhile_isBlank hgap rfl, hread, Option.bind_some]
  simp only
  rw [sign?_self hbefore rfl, Option.bind_some, hvalue]
  rfl

theorem value?_array {items : List JsonValue} (hgap : IsGap gap)
    (h : entries? ']' (value? bound) bound more = some (items, rest)) :
    value? (bound + 1) (gap ++ '[' :: more) = some (.array items, rest) := by
  rw [value?, dropWhile_isBlank hgap rfl]
  simp only
  rw [h]
  rfl

theorem value?_object {fields : List (String × JsonValue)} (hgap : IsGap gap)
    (h : entries? '\x7d' (field? (value? bound)) bound more = some (fields, rest)) :
    value? (bound + 1) (gap ++ '\x7b' :: more) = some (.object fields, rest) := by
  rw [value?, dropWhile_isBlank hgap rfl]
  simp only
  rw [h]
  rfl

end Value

/-! ## The reader and the grammar -/

/-- A value starts with a sign of its own. -/
theorem IsText.exists_cons {value : JsonValue} {text : List Char} (h : IsText value text) :
    ∃ c rest, text = c :: rest ∧ isBlank c = false ∧ c ≠ ']' := by
  cases h with
  | nat n =>
    obtain ⟨d, digits, hdigits⟩ := exists_repr_eq_cons n
    have hd : d.isDigit = true := isDigit_of_mem_repr (hdigits ▸ List.mem_cons_self)
    refine ⟨d, digits, hdigits, isBlank_of_isDigit hd, ?_⟩
    rintro rfl
    cases hd
  | text h =>
    obtain ⟨body, -, rfl⟩ := h
    exact ⟨'"', _, rfl, rfl, by decide⟩
  | emptyArray hgap => exact ⟨'[', _, rfl, rfl, by decide⟩
  | array hgap hfirst hmore => exact ⟨'[', _, rfl, rfl, by decide⟩
  | emptyObject hgap => exact ⟨'\x7b', _, rfl, rfl, by decide⟩
  | object hgap hfirst hmore => exact ⟨'\x7b', _, rfl, rfl, by decide⟩

theorem IsField.exists_cons {field : String × JsonValue} {text : List Char}
    (h : IsField field text) : ∃ rest, text = '"' :: rest := by
  cases h with
  | mk hkey hbefore hgap hvalue =>
    obtain ⟨body, -, rfl⟩ := hkey
    exact ⟨_, rfl⟩

theorem EndsArray.endsNumber {items : List JsonValue} {text : List Char} (h : EndsArray items text)
    (rest : List Char) : EndsNumber (text ++ rest) := by
  cases h with
  | close hgap =>
    rw [List.append_assoc]
    exact endsNumber_gap hgap rfl _
  | item hbefore hgap hfirst hmore =>
    rw [List.append_assoc]
    exact endsNumber_gap hbefore rfl _

theorem EndsObject.endsNumber {fields : List (String × JsonValue)} {text : List Char}
    (h : EndsObject fields text) (rest : List Char) : EndsNumber (text ++ rest) := by
  cases h with
  | close hgap =>
    rw [List.append_assoc]
    exact endsNumber_gap hgap rfl _
  | field hbefore hgap hfirst hmore =>
    rw [List.append_assoc]
    exact endsNumber_gap hbefore rfl _

mutual

/-- **Every text of a value is read as that value**, whatever follows it. -/
theorem value?_of_isText {value : JsonValue} {text : List Char} (h : IsText value text)
    {bound : Nat} (hbound : text.length ≤ bound) {gap rest : List Char} (hgap : IsGap gap)
    (hrest : EndsNumber rest) : value? bound (gap ++ (text ++ rest)) = some (value, rest) := by
  have hpos : 0 < text.length := by
    obtain ⟨c, tail, rfl, -, -⟩ := h.exists_cons
    exact Nat.succ_pos _
  obtain ⟨bound, rfl⟩ := Nat.exists_eq_add_one.2 (Nat.lt_of_lt_of_le hpos hbound)
  cases h with
  | nat n => exact value?_nat n hgap hrest
  | text h => exact value?_quoted hgap h
  | emptyArray hinner =>
    rw [List.cons_append, List.append_assoc]
    exact value?_array hgap (entries?_close hinner rfl)
  | @array item items inner first more hinner hfirst hmore =>
    simp only [List.length_cons, List.length_append] at hbound
    have hfits : first.length ≤ bound := by omega
    have hmoreFits : more.length ≤ bound := by omega
    have hone := value?_of_isText hfirst hfits hinner (hmore.endsNumber rest)
    have hothers := moreEntries?_of_endsArray hmore hmoreFits hmoreFits rest
    obtain ⟨c, tail, rfl, hc, hclose⟩ := hfirst.exists_cons
    rw [List.cons_append, List.append_assoc, List.append_assoc]
    exact value?_array hgap (entries?_entry hinner hc hclose hone hothers)
  | emptyObject hinner =>
    rw [List.cons_append, List.append_assoc]
    exact value?_object hgap (entries?_close hinner rfl)
  | @object field fields inner first more hinner hfirst hmore =>
    simp only [List.length_cons, List.length_append] at hbound
    have hfits : first.length ≤ bound := by omega
    have hmoreFits : more.length ≤ bound := by omega
    have hone := field?_of_isField hfirst hfits hinner (hmore.endsNumber rest)
    have hothers := moreEntries?_of_endsObject hmore hmoreFits hmoreFits rest
    obtain ⟨tail, rfl⟩ := hfirst.exists_cons
    rw [List.cons_append, List.append_assoc, List.append_assoc]
    exact value?_object hgap (entries?_entry hinner rfl (by decide) hone hothers)

theorem moreEntries?_of_endsArray {items : List JsonValue} {text : List Char}
    (h : EndsArray items text) {depth bound : Nat} (hdepth : text.length ≤ depth)
    (hbound : text.length ≤ bound) (rest : List Char) :
    moreEntries? ']' (value? depth) bound (text ++ rest) = some (items, rest) := by
  cases h with
  | close hgap =>
    rw [List.length_append, List.length_singleton] at hbound
    obtain ⟨bound, rfl⟩ := Nat.exists_eq_add_one.2 (show 0 < bound by omega)
    rw [List.append_assoc]
    exact moreEntries?_close hgap rfl
  | @item item items before gap first more hbefore hgap hfirst hmore =>
    simp only [List.length_append, List.length_cons] at hbound hdepth
    obtain ⟨bound, rfl⟩ := Nat.exists_eq_add_one.2 (show 0 < bound by omega)
    have hfits : first.length ≤ depth := by omega
    have hmoreDepth : more.length ≤ depth := by omega
    have hmoreBound : more.length ≤ bound := by omega
    have hone := value?_of_isText hfirst hfits hgap (hmore.endsNumber rest)
    have hothers := moreEntries?_of_endsArray hmore hmoreDepth hmoreBound rest
    rw [List.append_assoc, List.cons_append, List.append_assoc, List.append_assoc]
    exact moreEntries?_entry hbefore (by decide) hone hothers

theorem field?_of_isField {field : String × JsonValue} {text : List Char} (h : IsField field text)
    {bound : Nat} (hbound : text.length ≤ bound) {gap rest : List Char} (hgap : IsGap gap)
    (hrest : EndsNumber rest) :
    field? (value? bound) (gap ++ (text ++ rest)) = some (field, rest) := by
  cases h with
  | @mk key value quoted before inner text hkey hbefore hinner hvalue =>
    simp only [List.length_append, List.length_cons] at hbound
    have hfits : text.length ≤ bound := by omega
    have hread := value?_of_isText hvalue hfits hinner hrest
    rw [List.append_assoc, List.append_assoc, List.cons_append, List.append_assoc]
    exact field?_eq hgap hkey hbefore hread

theorem moreEntries?_of_endsObject {fields : List (String × JsonValue)} {text : List Char}
    (h : EndsObject fields text) {depth bound : Nat} (hdepth : text.length ≤ depth)
    (hbound : text.length ≤ bound) (rest : List Char) :
    moreEntries? '\x7d' (field? (value? depth)) bound (text ++ rest) = some (fields, rest) := by
  cases h with
  | close hgap =>
    rw [List.length_append, List.length_singleton] at hbound
    obtain ⟨bound, rfl⟩ := Nat.exists_eq_add_one.2 (show 0 < bound by omega)
    rw [List.append_assoc]
    exact moreEntries?_close hgap rfl
  | @field field fields before gap first more hbefore hgap hfirst hmore =>
    simp only [List.length_append, List.length_cons] at hbound hdepth
    obtain ⟨bound, rfl⟩ := Nat.exists_eq_add_one.2 (show 0 < bound by omega)
    have hfits : first.length ≤ depth := by omega
    have hmoreDepth : more.length ≤ depth := by omega
    have hmoreBound : more.length ≤ bound := by omega
    have hone := field?_of_isField hfirst hfits hgap (hmore.endsNumber rest)
    have hothers := moreEntries?_of_endsObject hmore hmoreDepth hmoreBound rest
    rw [List.append_assoc, List.cons_append, List.append_assoc, List.append_assoc]
    exact moreEntries?_entry hbefore (by decide) hone hothers

end

/-- **No text stands for two values.** -/
theorem IsText.unique {v v' : JsonValue} {text : List Char} (h : IsText v text)
    (h' : IsText v' text) : v = v' := by
  have hends : EndsNumber [] := nofun
  have hread := value?_of_isText h (Nat.le_refl _) isGap_nil hends
  have hread' := value?_of_isText h' (Nat.le_refl _) isGap_nil hends
  exact congrArg Prod.fst (Option.some.inj (hread.symm.trans hread'))

/-- A text of a value and a line feed make a document. -/
theorem read?_of_isText {value : JsonValue} {text : List Char} (h : IsText value text) :
    read? (String.ofList (text ++ ['\n'])) = some value := by
  have hfits : text.length ≤ (text ++ ['\n']).length := by simp
  have hends : EndsNumber ['\n'] := endsNumber_cons rfl
  have hread := value?_of_isText h hfits isGap_nil hends
  rw [List.nil_append] at hread
  rw [read?, String.length_ofList, String.toList_ofList, hread]
  rfl

end JsonValue

end RemoteImports
