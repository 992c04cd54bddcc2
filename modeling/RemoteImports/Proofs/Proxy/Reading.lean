import RemoteImports.Proofs.Text.Reading
import RemoteImports.Proxy.Declaration

/-!
# Reading proxy declarations back

The text of a proxy declaration determines the proxy (`Proxy.uniquely_readable`): `Proxy.read?`
gives back the bindings in order, the methods in order and the file name, and stops behind the
semicolon, whatever the imported names, the methods and the file name hold. The local names have to
be plain names. A shorthand is then never taken for a quoted key, since no plain name starts with a
quotation mark, and the name after a colon ends where the next sign starts.
-/

namespace RemoteImports

/-! ## Names -/

theorem isNamePart_of_isNameStart {c : Char} (h : isNameStart c = true) : isNamePart c = true := by
  simp only [isNameStart, isNamePart, Text.isLetterOrNumeral, Bool.or_eq_true] at h ⊢
  exact h.imp_left fun hc => hc.imp_left .inl

theorem isNameStart_quote : isNameStart '"' = false := by decide

/-- A plain name starts with a character that can start a name, and no character of it ends it. -/
theorem exists_of_isPlainName {name : String} (h : isPlainName name = true) :
    ∃ c rest, name.toList = c :: rest ∧ isNameStart c = true ∧
      ∀ x ∈ name.toList, isNamePart x = true := by
  unfold isPlainName at h
  split at h
  · cases h
  · rename_i c rest htext
    obtain ⟨hstart, hrest⟩ := Bool.and_eq_true_iff.1 h
    refine ⟨c, rest, htext, hstart, ?_⟩
    rw [htext, List.forall_mem_cons]
    exact ⟨isNamePart_of_isNameStart hstart, List.all_eq_true.1 hrest⟩

/-- The name at the start of a text, as long as it goes, and what follows it. -/
def plainName? (text : List Char) : Option (String × List Char) :=
  let name := String.ofList (text.takeWhile isNamePart)
  if isPlainName name then some (name, text.dropWhile isNamePart) else none

/-- What may follow a name: nothing that it could go on with. -/
def EndsName (rest : List Char) : Prop := ∀ c ∈ rest.head?, isNamePart c = false

theorem endsName_cons {c : Char} {rest : List Char} (hc : isNamePart c = false) :
    EndsName (c :: rest) := by
  simpa [EndsName] using hc

theorem EndsName.takeWhile_eq_nil {rest : List Char} (h : EndsName rest) :
    rest.takeWhile isNamePart = [] := by
  cases rest with
  | nil => rfl
  | cons c rest => rw [List.takeWhile_cons, h c rfl]; rfl

theorem EndsName.dropWhile_eq_self {rest : List Char} (h : EndsName rest) :
    rest.dropWhile isNamePart = rest := by
  cases rest with
  | nil => rfl
  | cons c rest => rw [List.dropWhile_cons, h c rfl]; rfl

theorem plainName?_append {name : String} {rest : List Char} (hname : isPlainName name = true)
    (hrest : EndsName rest) : plainName? (name.toList ++ rest) = some (name, rest) := by
  obtain ⟨-, -, -, -, hall⟩ := exists_of_isPlainName hname
  rw [plainName?, List.takeWhile_append_of_pos hall, List.dropWhile_append_of_pos hall,
    hrest.takeWhile_eq_nil, hrest.dropWhile_eq_self, List.append_nil, String.ofList_toList]
  exact if_pos hname

/-- No name starts where none can end. -/
theorem EndsName.plainName?_eq_none {rest : List Char} (h : EndsName rest) :
    plainName? rest = none := by
  simp only [plainName?, h.takeWhile_eq_nil]
  rfl

/-! ## Keys -/

/-- The imported name whose key is at the start of a text, and what follows it. -/
def key? (text : List Char) : Option (String × List Char) := Text.quoted? text <|> plainName? text

theorem quoted?_append_of_isPlainName {name : String} (h : isPlainName name = true)
    (rest : List Char) : Text.quoted? (name.toList ++ rest) = none := by
  obtain ⟨c, more, htext, hstart, -⟩ := exists_of_isPlainName h
  rw [htext, List.cons_append, Text.quoted?]
  intro after hquote
  obtain ⟨rfl, -⟩ := List.cons.inj hquote
  rw [isNameStart_quote] at hstart
  cases hstart

theorem key?_keyText_append (name : String) {rest : List Char} (hrest : EndsName rest) :
    key? ((keyText name).toList ++ rest) = some (name, rest) := by
  unfold key? keyText
  split_ifs with h
  · rw [quoted?_append_of_isPlainName h, plainName?_append h hrest]
    rfl
  · rw [Text.quoted?_quote]
    rfl

/-- A key that is a plain name is the imported name itself: it is not quoted. -/
theorem eq_of_keyText_eq {imported bound : String} (hbound : isPlainName bound = true)
    (h : keyText imported = bound) : imported = bound := by
  have hnone := quoted?_append_of_isPlainName hbound []
  rw [← h, keyText] at hnone
  split_ifs at hnone with hplain
  · rwa [keyText, if_pos hplain] at h
  · rw [Text.quoted?_quote] at hnone
    cases hnone

/-! ## Bindings -/

/-- The binding at the start of a text, and what follows it. A plain name alone stands for a name
that is imported and bound alike. -/
def Binding.read? (text : List Char) : Option (Binding × List Char) :=
  (key? text).bind fun (imported, rest) =>
    match [':', ' '].isPrefixOf? rest with
    | some more => (plainName? more).map (Prod.map (⟨imported, ·⟩) id)
    | none => (plainName? text).map (Prod.map (fun name => ⟨name, name⟩) id)

/-- What may follow a binding: neither more of its last name nor a colon. -/
def EndsBinding (rest : List Char) : Prop :=
  EndsName rest ∧ [':', ' '].isPrefixOf? rest = none

theorem endsBinding_cons {c : Char} {rest : List Char} (hc : isNamePart c = false)
    (hcolon : c ≠ ':') : EndsBinding (c :: rest) := by
  refine ⟨endsName_cons hc, ?_⟩
  rw [List.isPrefixOf?, if_neg (by simpa using hcolon.symm)]

theorem Binding.read?_render {binding : Binding} (h : isPlainName binding.bound = true)
    {rest : List Char} (hrest : EndsBinding rest) :
    Binding.read? ((binding.render ": ").toList ++ rest) = some (binding, rest) := by
  obtain ⟨imported, bound⟩ := binding
  by_cases hkey : keyText imported = bound
  · obtain rfl : imported = bound := eq_of_keyText_eq h hkey
    have hread := key?_keyText_append imported hrest.1
    rw [hkey] at hread
    simp only [Binding.render, hkey, if_true, Binding.read?, hread, Option.bind_some, hrest.2,
      plainName?_append h hrest.1]
    rfl
  · have hcolon : EndsName (':' :: ' ' :: (bound.toList ++ rest)) := endsName_cons (by decide)
    have hread := key?_keyText_append imported hcolon
    have hafter : [':', ' '].isPrefixOf? (':' :: ' ' :: (bound.toList ++ rest)) =
        some (bound.toList ++ rest) := Text.isPrefixOf?_append [':', ' '] _
    have htext : ((Binding.mk imported bound).render ": ").toList ++ rest =
        (keyText imported).toList ++ ':' :: ' ' :: (bound.toList ++ rest) := by
      simp [Binding.render, hkey]
    simp only [htext, Binding.read?, hread, Option.bind_some, hafter, plainName?_append h hrest.1]
    rfl

/-! ## Declarations -/

namespace Proxy

/-- The proxy that is declared at the start of a text, and what follows the declaration. -/
def read? (text : List Char) : Option (Proxy × List Char) := do
  let text ← "const \x7b ".toList.isPrefixOf? text
  let (bindings, text) := Text.items Binding.read? text
  let text ← (" \x7d = " ++ runtimeFactory ++ "([").toList.isPrefixOf? text
  let (methods, text) := Text.items Text.quoted? text
  let text ← "], \x7b filename: ".toList.isPrefixOf? text
  let (filename, text) ← Text.quoted? text
  let text ← " \x7d);".toList.isPrefixOf? text
  some (⟨bindings, methods, filename⟩, text)

variable {decl : Proxy}

theorem items_bindings {bindings : List Binding}
    (h : ∀ binding ∈ bindings, isPlainName binding.bound = true) (rest : List Char) :
    Text.items Binding.read? ((", ".intercalate (bindings.map (Binding.render ": "))).toList ++
        ' ' :: rest) = (bindings, ' ' :: rest) := by
  have hblank : EndsBinding (' ' :: rest) := endsBinding_cons (by decide) (by decide)
  refine Text.items_intercalate EndsBinding (fun binding hbinding _ => ?_) ?_ hblank ?_ rfl
  · exact Binding.read?_render (h binding hbinding)
  · exact fun more => endsBinding_cons (by decide) (by decide)
  · rw [Binding.read?, key?, hblank.1.plainName?_eq_none]
    rfl

theorem items_methods (methods : List String) (rest : List Char) :
    Text.items Text.quoted? ((", ".intercalate (methods.map Text.quote)).toList ++
        ']' :: rest) = (methods, ']' :: rest) :=
  Text.items_intercalate (fun _ => True) (fun method _ rest _ => Text.quoted?_quote method rest)
    (fun _ => trivial) trivial rfl rfl

/-- **The text of a proxy declaration is read back**, whatever follows it. -/
theorem read?_text (h : ∀ binding ∈ decl.bindings, isPlainName binding.bound = true)
    (rest : List Char) : read? (decl.text.toList ++ rest) = some (decl, rest) := by
  have htext : decl.text.toList ++ rest = "const \x7b ".toList ++
      ((", ".intercalate (decl.bindings.map (Binding.render ": "))).toList ++
        ((" \x7d = " ++ runtimeFactory ++ "([").toList ++
          ((", ".intercalate (decl.methods.map Text.quote)).toList ++
            ("], \x7b filename: ".toList ++
              ((Text.quote decl.filename).toList ++ (" \x7d);".toList ++ rest)))))) := by
    -- the equation lemma of a long concatenation takes seconds to make
    delta text
    simp only [String.toList_append, List.append_assoc]
  have hbindings (more : List Char) : Text.items Binding.read?
      ((", ".intercalate (decl.bindings.map (Binding.render ": "))).toList ++
        ((" \x7d = " ++ runtimeFactory ++ "([").toList ++ more)) =
      (decl.bindings, (" \x7d = " ++ runtimeFactory ++ "([").toList ++ more) :=
    items_bindings h _
  have hmethods (more : List Char) : Text.items Text.quoted?
      ((", ".intercalate (decl.methods.map Text.quote)).toList ++
        ("], \x7b filename: ".toList ++ more)) =
      (decl.methods, "], \x7b filename: ".toList ++ more) :=
    items_methods decl.methods _
  simp only [read?, htext, Text.isPrefixOf?_append, hbindings, hmethods, Text.quoted?_quote,
    Option.bind_eq_bind, Option.bind_some]

@[simp] theorem text_statement (decl : Proxy) : decl.statement.text = decl.text := rfl

/-- **The text of a proxy declaration determines the proxy**, for plain local names and any imported
names, methods and file name: it is read back as that proxy, whatever text follows it. So no other
proxy is declared by a text that is the same or goes on after it. -/
theorem uniquely_readable (h : ∀ binding ∈ decl.bindings, isPlainName binding.bound = true) :
    (∀ rest, read? (decl.statement.text.toList ++ rest) = some (decl, rest)) ∧
      ∀ other : Proxy, (∀ binding ∈ other.bindings, isPlainName binding.bound = true) →
        ∀ rest, other.statement.text = decl.statement.text ++ rest → other = decl ∧ rest = "" := by
  refine ⟨read?_text h, fun other hother rest htext => ?_⟩
  rw [text_statement, text_statement] at htext
  have hread := read?_text hother []
  rw [List.append_nil, htext, String.toList_append, read?_text h] at hread
  obtain ⟨rfl, hrest⟩ := Prod.mk.inj (Option.some.inj hread)
  exact ⟨rfl, String.toList_inj.1 (by rw [hrest]; rfl)⟩

/-- A proxy whose names, methods and file name hold the signs of a declaration. -/
def crafted : Proxy where
  bindings := [⟨"ping", "ping"⟩, ⟨"a: b, c", "d"⟩, ⟨"\" \x7d = evil([", "$e"⟩, ⟨"\"ping\"", "ping"⟩]
  methods := ["ping\", \"pong", "\\", "\n\"], \x7b filename: \"x\" \x7d);"]
  filename := "lib/\"\\\".js\" \x7d);\n//"

theorem crafted_uniquely_readable :
    (∀ binding ∈ crafted.bindings, isPlainName binding.bound = true) ∧
      (∀ rest, read? (crafted.statement.text.toList ++ rest) = some (crafted, rest)) ∧
      ∀ other : Proxy, (∀ binding ∈ other.bindings, isPlainName binding.bound = true) →
        ∀ rest, other.statement.text = crafted.statement.text ++ rest →
          other = crafted ∧ rest = "" := by
  have hplain : ∀ binding ∈ crafted.bindings, isPlainName binding.bound = true := by decide
  exact ⟨hplain, uniquely_readable hplain⟩

end Proxy

end RemoteImports
