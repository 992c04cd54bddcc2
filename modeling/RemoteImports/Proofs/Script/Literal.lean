import RemoteImports.Module.OfNodes
import RemoteImports.Proofs.Import.TypeNames
import RemoteImports.Proofs.Text.Reading
import RemoteImports.Proxy.Declaration

/-!
# What string literals denote

A string literal of a script denotes a list of code units: its characters stand for themselves, its
escape sequences for what they name (`literalValue?`, for module code, where octal escapes are
none). A quoted text denotes that text (`literalValue?_quoteChars`). But the text of a literal node
is kept as it is written, so its quoted form denotes the characters between the quotes of the
literal, which are the string that the literal denotes exactly if it has no escape sequence
(`literalValue?_quote_stringText`): an escape sequence is always longer than what it stands for.
-/

namespace RemoteImports.Script

open Text

/-! ## Code units -/

/-- The code units of a code point: one, or a pair of surrogates. -/
def codeUnits (code : ℕ) : List UInt16 :=
  if code < 0x10000 then [.ofNat code]
  else [.ofNat (0xD800 + (code - 0x10000) / 0x400), .ofNat (0xDC00 + (code - 0x10000) % 0x400)]

/-- The code units of a text. -/
def units (text : List Char) : List UInt16 := text.flatMap fun c => codeUnits c.toNat

@[simp] theorem units_nil : units [] = [] := rfl

@[simp] theorem units_cons (c : Char) (text : List Char) :
    units (c :: text) = codeUnits c.toNat ++ units text := rfl

@[simp] theorem units_append (text more : List Char) :
    units (text ++ more) = units text ++ units more := List.flatMap_append

theorem length_codeUnits_le (code : ℕ) : (codeUnits code).length ≤ 2 := by
  unfold codeUnits
  split <;> simp

theorem length_codeUnits_pos (code : ℕ) : 0 < (codeUnits code).length := by
  unfold codeUnits
  split <;> simp

/-- A text has at least as many code units as characters. -/
theorem length_le_length_units (text : List Char) : text.length ≤ (units text).length := by
  induction text with
  | nil => simp
  | cons c rest ih =>
    have hc := length_codeUnits_pos c.toNat
    simp only [units_cons, List.length_cons, List.length_append]
    omega

/-! ## Escape sequences -/

/-- The code point that a character denotes after a backslash. -/
def escapedCode : Char → ℕ
  | 'b' => 8
  | 't' => 9
  | 'n' => 10
  | 'v' => 11
  | 'f' => 12
  | 'r' => 13
  | c => c.toNat

/-- Whether a character ends a line. -/
def isLineEnd (c : Char) : Bool :=
  c == '\n' || c == '\r' || c.toNat == 0x2028 || c.toNat == 0x2029

/-- What a code point in braces at the start of a text denotes, and what follows it. The opening
brace is no part of the text. -/
def bracedValue? (text : List Char) : Option (List UInt16 × List Char) :=
  match text.takeWhile (· ≠ '}'), text.dropWhile (· ≠ '}') with
  | digit :: digits, _ :: after =>
    (hexValue? (digit :: digits)).bind fun code =>
      if code < 0x110000 then some (codeUnits code, after) else none
  | _, _ => none

/-- What the escape sequence at the start of a text denotes, and what follows it. The backslash is
no part of the text. A line end is left out; a digit other than a lone zero is no escape sequence of
module code. -/
def escapeValue? : List Char → Option (List UInt16 × List Char)
  | 'u' :: '{' :: rest => bracedValue? rest
  | 'u' :: a :: b :: c :: d :: after =>
    (hexValue? [a, b, c, d]).map fun unit => ([.ofNat unit], after)
  | 'x' :: a :: b :: after => (hexValue? [a, b]).map fun unit => ([.ofNat unit], after)
  | '0' :: after => if after.head?.any Char.isDigit then none else some ([0], after)
  | '\r' :: '\n' :: after => some ([], after)
  | c :: after =>
    if isLineEnd c then some ([], after)
    else if c.isDigit || c == 'u' || c == 'x' then none
    else some (codeUnits (escapedCode c), after)
  | [] => none

theorem length_escapedCode_le (c : Char) :
    (codeUnits (escapedCode c)).length ≤ (codeUnits c.toNat).length := by
  unfold escapedCode
  split
  iterate 6 decide
  exact Nat.le_refl _

/-- A code point in braces has at most two units and is written with more than one character. -/
theorem exists_of_bracedValue? {text after : List Char} {value : List UInt16}
    (h : bracedValue? text = some (value, after)) :
    ∃ sequence, text = sequence ++ after ∧ value.length ≤ (units sequence).length := by
  unfold bracedValue? at h
  split at h
  · rename_i digit digits close after' hdigits hclose
    obtain ⟨code, -, hcode⟩ := Option.bind_eq_some_iff.1 h
    split at hcode
    · obtain ⟨rfl, rfl⟩ := Prod.mk.inj (Option.some.inj hcode)
      refine ⟨digit :: digits ++ [close], ?_, ?_⟩
      · rw [List.append_assoc, List.singleton_append, ← hdigits, ← hclose,
          List.takeWhile_append_dropWhile]
      · have hlength := length_le_length_units (digit :: digits ++ [close])
        have hvalue := length_codeUnits_le code
        simp only [List.length_cons, List.length_append] at hlength
        omega
    · cases hcode
  · cases h

/-- **An escape sequence has as many code units as what it denotes**, at least, also without its
backslash. -/
theorem exists_of_escapeValue? {text after : List Char} {value : List UInt16}
    (h : escapeValue? text = some (value, after)) :
    ∃ sequence, text = sequence ++ after ∧ value.length ≤ (units sequence).length := by
  unfold escapeValue? at h
  split at h
  · obtain ⟨sequence, rfl, hlength⟩ := exists_of_bracedValue? h
    refine ⟨'u' :: '{' :: sequence, rfl, ?_⟩
    simp only [units_cons, List.length_append]
    omega
  · rename_i a b c d after' _
    obtain ⟨unit, -, hunit⟩ := Option.map_eq_some_iff.1 h
    obtain ⟨rfl, rfl⟩ := Prod.mk.inj hunit
    exact ⟨['u', a, b, c, d], rfl, Nat.le_trans (by simp) (length_le_length_units _)⟩
  · rename_i a b after'
    obtain ⟨unit, -, hunit⟩ := Option.map_eq_some_iff.1 h
    obtain ⟨rfl, rfl⟩ := Prod.mk.inj hunit
    exact ⟨['x', a, b], rfl, Nat.le_trans (by simp) (length_le_length_units _)⟩
  · split at h
    · cases h
    · obtain ⟨rfl, rfl⟩ := Prod.mk.inj (Option.some.inj h)
      exact ⟨['0'], rfl, by decide⟩
  · obtain ⟨rfl, rfl⟩ := Prod.mk.inj (Option.some.inj h)
    exact ⟨['\r', '\n'], rfl, Nat.zero_le _⟩
  · rename_i c after' _ _ _ _ _
    split at h
    · obtain ⟨rfl, rfl⟩ := Prod.mk.inj (Option.some.inj h)
      exact ⟨[c], rfl, Nat.zero_le _⟩
    · split at h
      · cases h
      · obtain ⟨rfl, rfl⟩ := Prod.mk.inj (Option.some.inj h)
        exact ⟨[c], rfl, by simpa using length_escapedCode_le c⟩
  · cases h

/-! ## Literals -/

/-- What the rest of a literal denotes, up to the quote that closes it. -/
def bodyValue? (quote : Char) : List Char → Option (List UInt16)
  | [] => none
  | c :: rest =>
    if c = quote then if rest = [] then some [] else none
    else if c = '\\' then
      match h : escapeValue? rest with
      | some (value, after) =>
        have := exists_of_escapeValue? h
        (bodyValue? quote after).map (value ++ ·)
      | none => none
    else if c = '\n' ∨ c = '\r' then none
    else (bodyValue? quote rest).map (codeUnits c.toNat ++ ·)
termination_by text => text.length
decreasing_by
  · obtain ⟨sequence, rfl, -⟩ := this
    simp only [List.length_cons, List.length_append]
    omega
  · simp

/-- The code units that a string literal denotes, if the text is one. -/
def literalValue? : List Char → Option (List UInt16)
  | '\'' :: rest => bodyValue? '\'' rest
  | '"' :: rest => bodyValue? '"' rest
  | _ => none

variable {quote : Char} {text body literal more : List Char} {value : List UInt16}

/-- What a literal denotes, against the text between its quotes: without a backslash it is that
text, with one it has fewer code units. -/
structure Unescapes (body : List Char) (value : List UInt16) : Prop where
  eq_units : '\\' ∉ body → value = units body
  length_le : value.length ≤ (units body).length
  length_lt : '\\' ∈ body → value.length < (units body).length

namespace Unescapes

theorem nil : Unescapes [] [] := ⟨fun _ => rfl, Nat.le_refl 0, fun h => absurd h List.not_mem_nil⟩

theorem character {c : Char} (hc : c ≠ '\\') (h : Unescapes body value) :
    Unescapes (c :: body) (codeUnits c.toNat ++ value) := by
  refine ⟨fun hplain => ?_, ?_, fun hmem => ?_⟩
  · rw [h.eq_units fun hmem => hplain (List.mem_cons_of_mem c hmem), units_cons]
  · have hlength := h.length_le
    simp only [units_cons, List.length_append]
    omega
  · have hlength := h.length_lt ((List.mem_cons.1 hmem).resolve_left hc.symm)
    simp only [units_cons, List.length_append]
    omega

theorem escape {sequence : List Char} {denoted : List UInt16}
    (hdenoted : denoted.length ≤ (units sequence).length) (h : Unescapes body value) :
    Unescapes ('\\' :: sequence ++ body) (denoted ++ value) := by
  have hlength := h.length_le
  have hlt : (denoted ++ value).length < (units ('\\' :: sequence ++ body)).length := by
    have hbackslash := length_codeUnits_pos '\\'.toNat
    simp only [List.cons_append, units_cons, units_append, List.length_append]
    omega
  exact ⟨fun hplain => absurd List.mem_cons_self hplain, Nat.le_of_lt hlt, fun _ => hlt⟩

theorem eq_units_iff (h : Unescapes body value) : value = units body ↔ '\\' ∉ body := by
  refine ⟨fun heq hmem => ?_, h.eq_units⟩
  have hlt := h.length_lt hmem
  rw [heq] at hlt
  exact Nat.lt_irrefl _ hlt

end Unescapes

theorem exists_of_bodyValue? (h : bodyValue? quote text = some value) :
    ∃ body, text = body ++ [quote] ∧ Unescapes body value := by
  fun_induction bodyValue? quote text generalizing value with
  | case1 => cases h
  | case2 =>
    cases h
    exact ⟨[], rfl, .nil⟩
  | case3 => cases h
  | case4 rest denoted after hescape hsequence _ ih =>
    obtain ⟨value, hvalue, rfl⟩ := Option.map_eq_some_iff.1 h
    obtain ⟨body, rfl, hbody⟩ := ih hvalue
    obtain ⟨sequence, rfl, hdenoted⟩ := hsequence
    exact ⟨'\\' :: sequence ++ body, by simp, hbody.escape hdenoted⟩
  | case5 => cases h
  | case6 => cases h
  | case7 c rest _ hbackslash _ ih =>
    obtain ⟨value, hvalue, rfl⟩ := Option.map_eq_some_iff.1 h
    obtain ⟨body, rfl, hbody⟩ := ih hvalue
    exact ⟨c :: body, rfl, hbody.character hbackslash⟩

/-- **The text between the quotes** of a literal, and what the literal denotes. -/
theorem unescapes_unquote (h : literalValue? literal = some value) :
    Unescapes (unquote literal) value ∧ ('\\' ∈ unquote literal ↔ '\\' ∈ literal) := by
  obtain ⟨quote, body, hquote, rfl, hbody⟩ :
      ∃ quote body, (quote = '\'' ∨ quote = '"') ∧ literal = quote :: (body ++ [quote]) ∧
        Unescapes body value := by
    unfold literalValue? at h
    split at h
    · obtain ⟨body, rfl, hbody⟩ := exists_of_bodyValue? h
      exact ⟨_, body, .inl rfl, rfl, hbody⟩
    · obtain ⟨body, rfl, hbody⟩ := exists_of_bodyValue? h
      exact ⟨_, body, .inr rfl, rfl, hbody⟩
    · cases h
  have hunquote : unquote (quote :: (body ++ [quote])) = body := by
    rcases hquote with rfl | rfl <;> simp [unquote]
  rw [hunquote]
  refine ⟨hbody, ?_⟩
  rcases hquote with rfl | rfl <;> simp

/-! ## Quoted texts -/

theorem bodyValue?_cons {c : Char} (hquote : c ≠ quote) (hbackslash : c ≠ '\\')
    (hline : ¬ (c = '\n' ∨ c = '\r')) :
    bodyValue? quote (c :: more) = (bodyValue? quote more).map (codeUnits c.toNat ++ ·) := by
  rw [bodyValue?, if_neg hquote, if_neg hbackslash, if_neg hline]

theorem bodyValue?_backslash (hquote : quote ≠ '\\')
    (h : escapeValue? text = some (value, more)) :
    bodyValue? quote ('\\' :: text) = (bodyValue? quote more).map (value ++ ·) := by
  rw [bodyValue?, if_neg hquote.symm, if_pos rfl]
  split
  · rename_i value' after heq
    obtain ⟨rfl, rfl⟩ := Prod.mk.inj (Option.some.inj (heq.symm.trans h))
    rfl
  · rename_i hnone
    rw [h] at hnone
    cases hnone

/-- The escaped form of a character denotes it. -/
theorem bodyValue?_escape (c : Char) (more : List Char) :
    bodyValue? '"' (escape c ++ more) = (bodyValue? '"' more).map (codeUnits c.toNat ++ ·) := by
  have hquote : '"' ≠ '\\' := by decide
  unfold escape
  split_ifs with hc hc hc hc hc hc hc hc
  -- the characters with an escape sequence of one letter
  iterate 7
    rw [hc]
    exact bodyValue?_backslash hquote rfl
  · refine bodyValue?_backslash hquote ?_
    have hdigits : escapeValue? ('u' :: '0' :: '0' :: hexDigit (c.toNat / 16) ::
        hexDigit (c.toNat % 16) :: more) = some ([.ofNat c.toNat], more) := by
      rw [escapeValue?, hexValue?_hexDigits _ hc]
      · rfl
      · decide
    rw [codeUnits, if_pos (by omega)]
    exact hdigits
  · refine bodyValue?_cons (by assumption) (by assumption) ?_
    rintro (rfl | rfl)
    · exact hc (by decide)
    · exact hc (by decide)

theorem bodyValue?_flatMap_escape (text : List Char) :
    bodyValue? '"' (text.flatMap escape ++ ['"']) = some (units text) := by
  induction text with
  | nil => simp [bodyValue?]
  | cons c rest ih =>
    rw [List.flatMap_cons, List.append_assoc, bodyValue?_escape, ih]
    rfl

/-- **A quoted text denotes that text.** -/
theorem literalValue?_quoteChars (text : List Char) :
    literalValue? (quoteChars text) = some (units text) :=
  bodyValue?_flatMap_escape text

/-! ## Literals of a source text -/

/-- **A string literal and the literal that is written for it.** The literal that is written for the
text of a node denotes the characters between the quotes of the node. They are what the literal of
the source text denotes exactly if it has no escape sequence. -/
theorem literalValue?_quote_stringText {source : List Char} {node : Node}
    (h : literalValue? (slice source node.start node.stop) = some value) :
    literalValue? (Text.quote (node.stringText source)).toList =
        some (units (unquote (slice source node.start node.stop))) ∧
      (literalValue? (Text.quote (node.stringText source)).toList = some value ↔
        '\\' ∉ slice source node.start node.stop) := by
  obtain ⟨hunescapes, hmem⟩ := unescapes_unquote h
  have hquote : literalValue? (Text.quote (node.stringText source)).toList =
      some (units (unquote (slice source node.start node.stop))) := by
    rw [Text.quote, Node.stringText, String.toList_ofList, String.toList_ofList]
    exact literalValue?_quoteChars _
  refine ⟨hquote, ?_⟩
  rw [hquote, Option.some.injEq, eq_comm, hunescapes.eq_units_iff, hmem]

/-- The literal of the module that a source text imports. -/
def moduleLiteral (text : String) : Node :=
  ((BackendImport.firstNode text).child? .source).getD default

theorem zoneSource_moduleLiteral :
    literalValue? (slice BackendImport.zoneSource.toList
        (moduleLiteral BackendImport.zoneSource).start
        (moduleLiteral BackendImport.zoneSource).stop) = some (units "../backend/clock".toList) ∧
      literalValue? (Text.quote ((moduleLiteral BackendImport.zoneSource).stringText
        BackendImport.zoneSource.toList)).toList = some (units "../backend/clock".toList) := by
  obtain ⟨hvalue, hplain⟩ :
      literalValue? (slice BackendImport.zoneSource.toList
        (moduleLiteral BackendImport.zoneSource).start
        (moduleLiteral BackendImport.zoneSource).stop) = some (units "../backend/clock".toList) ∧
      '\\' ∉ slice BackendImport.zoneSource.toList
        (moduleLiteral BackendImport.zoneSource).start
        (moduleLiteral BackendImport.zoneSource).stop := by
    decide +kernel
  exact ⟨hvalue, (literalValue?_quote_stringText hvalue).2.2 hplain⟩

/-- A source text that imports a type whose name is a literal with an escape sequence. -/
def escapedSource : String := "import \x7b type 'it\\'s' as T, ping \x7d from '../backend/api';"

/-- **A name with an escape sequence** is another one in the import of types that is written for
it. -/
theorem escaped_name_changes :
    (Module.importOfNode escapedSource.toList (BackendImport.firstNode escapedSource)).map
        (fun decl => (typeImport decl.source
          (decl.specifiers.filterMap BackendImport.typeBinding?)).text) =
      some "import type \x7b \"it\\\\'s\" as T \x7d from \"../backend/api\";" ∧
    literalValue? "'it\\'s'".toList = some (units "it's".toList) ∧
    literalValue? "\"it\\\\'s\"".toList = some (units "it\\'s".toList) ∧
    units "it\\'s".toList ≠ units "it's".toList := by
  decide +kernel

end RemoteImports.Script
