import RemoteImports.Proofs.Config.Resolution
import RemoteImports.Proofs.Text.Trim

/-!
# File extensions of a configuration

A file has its extension without a dot in front and without blanks around it. Extensions are given
with such dots and blanks: first the blanks around an extension are taken away, then the dots in
front. That is enough unless a blank stands behind the dots, which stays (`plain_extensions_iff`).
A variable that lists extensions counts like a file with the parts of the variable as its list
(`IsLayered.extensions_eq`).
-/

namespace RemoteImports

namespace Config

open Text

/-- An extension as files have it: there is something to it, no dot is in front and no blank at
either end. -/
structure IsPlainExtension (e : String) : Prop where
  ne_empty : e ≠ ""
  head_ne_dot : e.toList.head? ≠ some '.'
  isTrimmed : IsTrimmed e.toList

/-- After blanks, perhaps none, an extension has dots, then a blank, and later something else. -/
def HasBlankBehindDots (e : String) : Prop :=
  ∃ before n blank rest, e.toList = before ++ (List.replicate (n + 1) '.' ++ blank :: rest) ∧
    (∀ c ∈ before, isBlank c) ∧ isBlank blank ∧ ∃ c ∈ rest, ¬ isBlank c

/-- An extension without the blanks around it and the dots in front. -/
def bareExtension (e : String) : String :=
  String.ofList ((trimChars e.toList).dropWhile (· = '.'))

variable {e t : String} {texts : List String} {c : Char}

/-! ## One extension -/

theorem toList_bareExtension (e : String) :
    (bareExtension e).toList = (trimChars e.toList).dropWhile (· = '.') :=
  String.toList_ofList

theorem bareExtension_trim (e : String) : bareExtension (trim e) = bareExtension e := by
  rw [bareExtension, trim, String.toList_ofList, trimChars_trimChars, bareExtension]

/-- What is left without the blanks around it is dots and then the extension. -/
theorem exists_trimChars_eq (e : String) :
    ∃ n, trimChars e.toList = List.replicate n '.' ++ (bareExtension e).toList := by
  have hdots : ∀ c ∈ (trimChars e.toList).takeWhile (· = '.'), c = '.' := fun c hc => by
    simpa using List.mem_takeWhile_imp hc
  refine ⟨((trimChars e.toList).takeWhile (· = '.')).length, ?_⟩
  rw [← List.eq_replicate_of_mem hdots, toList_bareExtension, List.takeWhile_append_dropWhile]

theorem head?_bareExtension (e : String) : (bareExtension e).toList.head? ≠ some '.' := by
  intro h
  have hhead := List.head?_dropWhile_not (· = '.') (trimChars e.toList)
  rw [← toList_bareExtension, h] at hhead
  simp at hhead

theorem not_isBlank_of_getLast?_bareExtension (h : c ∈ (bareExtension e).toList.getLast?) :
    ¬ isBlank c := by
  obtain ⟨n, hn⟩ := exists_trimChars_eq e
  refine (isTrimmed_trimChars e.toList).last c ?_
  rw [hn, List.getLast?_append, Option.mem_def.1 h, Option.some_or, Option.mem_some]

/-- A blank in front is all that can be left on an extension. -/
theorem isPlainExtension_bareExtension_iff (h : bareExtension e ≠ "") :
    IsPlainExtension (bareExtension e) ↔ ∀ c ∈ (bareExtension e).toList.head?, ¬ isBlank c := by
  constructor
  · intro hplain
    exact hplain.isTrimmed.head
  · intro hhead
    exact ⟨h, head?_bareExtension e, hhead, fun _ => not_isBlank_of_getLast?_bareExtension⟩

/-- Exactly the plain extensions stay as they are. -/
theorem bareExtension_eq_self_iff (h : e ≠ "") : bareExtension e = e ↔ IsPlainExtension e := by
  constructor
  · intro heq
    refine ⟨h, heq ▸ head?_bareExtension e, trimChars_eq_self_iff.1 ?_⟩
    -- if nothing is taken away in all, the trimming takes nothing away
    obtain ⟨n, hn⟩ := exists_trimChars_eq e
    have hsub : e.toList.Sublist (trimChars e.toList) := by
      rw [hn, heq]
      exact List.sublist_append_right _ _
    exact (trimChars_sublist e.toList).antisymm hsub
  · intro hplain
    obtain ⟨c, rest, hcons⟩ := List.exists_cons_of_ne_nil (mt String.toList_eq_nil_iff.1 h)
    have hdot : c ≠ '.' := by
      rintro rfl
      exact hplain.head_ne_dot (hcons ▸ rfl)
    rw [bareExtension, trimChars_eq_self_iff.2 hplain.isTrimmed, hcons,
      List.dropWhile_cons_of_neg (by simpa using hdot), ← hcons, String.ofList_toList]

/-! ## Blanks behind dots -/

/-- Trimming a text with a blank behind its dots leaves that blank where it is. -/
theorem trimChars_of_blank_behind {before rest : List Char} {n : Nat}
    (hbefore : ∀ c ∈ before, isBlank c) (hrest : ∃ c ∈ rest, ¬ isBlank c) :
    trimChars (before ++ (List.replicate (n + 1) '.' ++ c :: rest)) =
      List.replicate (n + 1) '.' ++ c :: rest.rdropWhile isBlank := by
  have hcons : (c :: rest).rdropWhile isBlank = c :: rest.rdropWhile isBlank :=
    rdropWhile_append_of_exists [c] hrest
  obtain ⟨d, hd, hblank⟩ := hrest
  rw [trimChars_eq, List.dropWhile_append_of_pos hbefore, List.replicate_succ, List.cons_append,
    List.dropWhile_cons_of_neg (by decide), ← List.cons_append,
    rdropWhile_append_of_exists _ ⟨d, List.mem_cons_of_mem c hd, hblank⟩, hcons]

theorem exists_blank_of_hasBlankBehindDots (h : HasBlankBehindDots e) :
    ∃ c ∈ (bareExtension e).toList.head?, isBlank c := by
  obtain ⟨before, n, blank, rest, htext, hbefore, hblank, hrest⟩ := h
  have hdot : blank ≠ '.' := by
    rintro rfl
    exact absurd hblank (by decide)
  refine ⟨blank, ?_, hblank⟩
  rw [toList_bareExtension, htext, trimChars_of_blank_behind hbefore hrest,
    List.dropWhile_append_of_pos (by simp), List.dropWhile_cons_of_neg (by simpa using hdot)]
  rfl

theorem hasBlankBehindDots_of_exists_blank (h : c ∈ (bareExtension e).toList.head?)
    (hblank : isBlank c) : HasBlankBehindDots e := by
  obtain ⟨before, after, htext, hbefore, -⟩ := exists_eq_append_trimChars e.toList
  obtain ⟨n, hn⟩ := exists_trimChars_eq e
  obtain ⟨rest, hrest⟩ := List.head?_eq_some_iff.1 (Option.mem_def.1 h)
  rw [hrest] at hn
  cases n with
  | zero =>
    -- without dots the blank would be at the start of a trimmed text
    refine absurd hblank ((isTrimmed_trimChars e.toList).head c ?_)
    rw [hn]
    rfl
  | succ n =>
    obtain ⟨d, hd, hdblank⟩ : ∃ d ∈ rest, ¬ isBlank d := by
      refine exists_not_isBlank_of_getLast? (fun d hd => ?_) hblank
      exact not_isBlank_of_getLast?_bareExtension (hrest ▸ hd)
    refine ⟨before, n, c, rest ++ after, ?_, hbefore, hblank, d, List.mem_append_left _ hd, hdblank⟩
    rw [htext, hn, List.append_assoc, List.cons_append]

/-- **A blank is left in front of an extension** exactly if it stands behind dots. -/
theorem hasBlankBehindDots_iff :
    HasBlankBehindDots e ↔ ∃ c ∈ (bareExtension e).toList.head?, isBlank c :=
  ⟨exists_blank_of_hasBlankBehindDots, fun ⟨_, hc, hblank⟩ =>
    hasBlankBehindDots_of_exists_blank hc hblank⟩

instance (e : String) : Decidable (HasBlankBehindDots e) :=
  decidable_of_iff ((bareExtension e).toList.head?.any isBlank) <| by
    simp only [hasBlankBehindDots_iff, Option.any_eq_true, Option.mem_def]

/-! ## Lists of extensions -/

theorem cleanExtensions_eq (texts : List String) :
    cleanExtensions texts = (texts.map bareExtension).filter (· ≠ "") := rfl

theorem mem_cleanExtensions_iff :
    e ∈ cleanExtensions texts ↔ (∃ t ∈ texts, bareExtension t = e) ∧ e ≠ "" := by
  simp [cleanExtensions_eq]

theorem cleanExtensions_cons (t : String) (texts : List String) :
    cleanExtensions (t :: texts) =
      if bareExtension t = "" then cleanExtensions texts
      else bareExtension t :: cleanExtensions texts := by
  simp [cleanExtensions_eq, List.filter_cons]

theorem length_cleanExtensions_le (texts : List String) :
    (cleanExtensions texts).length ≤ texts.length := by
  simpa [cleanExtensions_eq] using List.length_filter_le (· ≠ "") (texts.map bareExtension)

/-- Exactly the lists of plain extensions stay as they are. -/
theorem cleanExtensions_eq_self_iff :
    cleanExtensions texts = texts ↔ ∀ t ∈ texts, IsPlainExtension t := by
  induction texts with
  | nil => simp [cleanExtensions_eq]
  | cons t texts ih =>
    rw [cleanExtensions_cons, List.forall_mem_cons, ← ih]
    split
    · rename_i hnil
      refine iff_of_false (fun h => ?_) fun ⟨hplain, _⟩ => hplain.ne_empty ?_
      · have hlength := length_cleanExtensions_le texts
        rw [h, List.length_cons] at hlength
        omega
      · rw [← (bareExtension_eq_self_iff hplain.ne_empty).2 hplain, hnil]
    · rename_i hne
      rw [List.cons.injEq]
      refine and_congr_left fun _ => ⟨fun h => ?_, fun hplain => ?_⟩
      · exact (bareExtension_eq_self_iff (h ▸ hne)).1 h
      · exact (bareExtension_eq_self_iff hplain.ne_empty).2 hplain

/-- **A cleaned list is plain** exactly if no blank stood behind dots. -/
theorem forall_isPlain_cleanExtensions_iff :
    (∀ e ∈ cleanExtensions texts, IsPlainExtension e) ↔ ∀ t ∈ texts, ¬ HasBlankBehindDots t := by
  simp only [mem_cleanExtensions_iff, hasBlankBehindDots_iff]
  constructor
  · rintro h t ht ⟨c, hc, hblank⟩
    have hne : bareExtension t ≠ "" := by
      intro hnil
      rw [hnil] at hc
      cases hc
    exact (h _ ⟨⟨t, ht, rfl⟩, hne⟩).isTrimmed.head c hc hblank
  · rintro h _ ⟨⟨t, ht, rfl⟩, hne⟩
    exact (isPlainExtension_bareExtension_iff hne).2 fun c hc hblank => h t ht ⟨c, hc, hblank⟩

/-- Blanks around extensions and empty extensions make no difference. -/
theorem cleanExtensions_map_trim (texts : List String) :
    cleanExtensions ((texts.map trim).filter (· ≠ "")) = cleanExtensions texts := by
  induction texts with
  | nil => rfl
  | cons t texts ih =>
    rw [cleanExtensions_cons, List.map_cons, List.filter_cons]
    split
    · rw [cleanExtensions_cons, bareExtension_trim, ih]
    · rename_i hnil
      have htrim : trim t = "" := by simpa using hnil
      have hbare : bareExtension t = "" := by
        rw [← bareExtension_trim, htrim]
        rfl
      rw [ih, if_pos hbare]

theorem cleanExtensions_listMembers (text : String) :
    cleanExtensions (listMembers text) = cleanExtensions (commaParts text) :=
  cleanExtensions_map_trim (commaParts text)

/-! ## Variables and files -/

/-- The list of extensions that counts, if there is one: the parts of the variable, the list of the
file of the project, or that of the file of the user. -/
def givenExtensions? (env : Environment) (user project : Option LoadedFile) :
    Option (List String) :=
  ((env.text? Setting.extensions.variable).map commaParts).or
    ((project.bind (·.2.extensions)).or (user.bind (·.2.extensions)))

variable {config : Config} {tree : FileTree} {env : Environment} {working : FilePath}
  {flags : Overrides} {user project : Option LoadedFile}

/-- The extensions that a layer gives. -/
def Layer.extensions? (layer : Layer) : Option (List String) := (layer .extensions).map Prod.fst

theorem extensions?_environmentLayer (working : FilePath) (env : Environment) :
    (environmentLayer working env).extensions? =
      ((env.text? Setting.extensions.variable).map commaParts).map cleanExtensions := by
  rw [Layer.extensions?, environmentLayer_of_total (k := .extensions) env fun _ => rfl,
    Option.map_map, Option.map_map]
  exact congrArg (Option.map · _) (funext cleanExtensions_listMembers)

theorem extensions?_of (source : Source) {given : (k : Setting) → Option k.Value} :
    (Layer.of source given).extensions? = given .extensions := by
  rw [Layer.extensions?, Layer.of, Option.map_map]
  exact Option.map_id'

/-- The extensions of the layer of a file, if there is one. -/
theorem findSome?_extensions?_file {layerOf : LoadedFile → Layer}
    (h : ∀ file, (layerOf file).extensions? = file.2.extensions.map cleanExtensions)
    (file : Option LoadedFile) :
    (file.toList.map layerOf).findSome? Layer.extensions? =
      (file.bind (·.2.extensions)).map cleanExtensions := by
  cases file with
  | none => rfl
  | some file =>
    rw [Option.toList_some, List.map_singleton, List.findSome?_singleton, h, Option.bind_some]

theorem findSome?_extensions?_layers (working : FilePath) (user project : Option LoadedFile)
    (env : Environment) (flags : Overrides) :
    (layers working user project env flags).findSome? Layer.extensions? =
      some (((givenExtensions? env user project).map cleanExtensions).getD
        Dialect.defaultExtensions) := by
  have hflags : (flagLayer flags).extensions? = none := rfl
  have hbuiltIn : (builtInLayer working).extensions? = some Dialect.defaultExtensions := rfl
  rw [layers, List.findSome?_append, List.findSome?_append, List.findSome?_append,
    findSome?_extensions?_file (fun _ => extensions?_of _),
    findSome?_extensions?_file (fun _ => extensions?_of _), List.findSome?_singleton, hbuiltIn,
    List.findSome?_cons, hflags, List.findSome?_singleton, extensions?_environmentLayer,
    givenExtensions?]
  simp only [Option.map_or, Option.or_some, Option.getD_or]

/-- **A variable counts like a file** with the parts of the variable as its list. -/
theorem IsLayered.extensions_eq (h : config.IsLayered (layers working user project env flags)) :
    config.extensions =
      ((givenExtensions? env user project).map cleanExtensions).getD Dialect.defaultExtensions := by
  obtain ⟨source, -, hhighest⟩ := h.exists_source .extensions
  have hgiven : (layers working user project env flags).findSome? Layer.extensions? =
      some config.extensions :=
    List.map_findSome?.symm.trans (congrArg (Option.map Prod.fst) hhighest)
  rw [findSome?_extensions?_layers] at hgiven
  exact (Option.some.inj hgiven).symm

theorem isPlainExtension_of_mem_default (h : e ∈ Dialect.defaultExtensions) :
    IsPlainExtension e := by
  refine cleanExtensions_eq_self_iff.1 ?_ e h
  decide +kernel

/-! ## Resolved extensions -/

/-- **The extensions of a configuration are plain** exactly if no blank stands behind the dots of a
given one, and this is also when cleaning them once more changes nothing. A variable counts like a
file that has the parts of its value as a list. -/
theorem plain_extensions_iff (tree : FileTree) (env : Environment) (working : FilePath)
    (flags : Overrides) :
    (∀ texts : List String,
      (∀ e ∈ cleanExtensions texts, e ≠ "" ∧ e.toList.head? ≠ some '.' ∧
        ∀ c ∈ e.toList.getLast?, ¬ isBlank c) ∧
      (cleanExtensions texts = texts ↔ ∀ t ∈ texts, IsPlainExtension t) ∧
      ((∀ e ∈ cleanExtensions texts, IsPlainExtension e) ↔
        ∀ t ∈ texts, ¬ HasBlankBehindDots t) ∧
      (cleanExtensions (cleanExtensions texts) = cleanExtensions texts ↔
        ∀ t ∈ texts, ¬ HasBlankBehindDots t)) ∧
    (∀ text, cleanExtensions (listMembers text) = cleanExtensions (commaParts text)) ∧
    ∀ config, resolve tree env working flags = .ok config →
      ∃ user project, LoadsFrom tree (userFile? tree env) user ∧
        LoadsFrom tree (projectFile? tree working) project ∧
        config.extensions =
          ((givenExtensions? env user project).map cleanExtensions).getD
            Dialect.defaultExtensions ∧
        ((∀ e ∈ config.extensions, IsPlainExtension e) ↔
          ∀ texts, givenExtensions? env user project = some texts →
            ∀ t ∈ texts, ¬ HasBlankBehindDots t) := by
  refine ⟨fun texts => ⟨fun e he => ?_, cleanExtensions_eq_self_iff,
    forall_isPlain_cleanExtensions_iff, ?_⟩, cleanExtensions_listMembers, fun config h => ?_⟩
  · obtain ⟨⟨t, -, rfl⟩, hne⟩ := mem_cleanExtensions_iff.1 he
    exact ⟨hne, head?_bareExtension t, fun _ => not_isBlank_of_getLast?_bareExtension⟩
  · exact cleanExtensions_eq_self_iff.trans forall_isPlain_cleanExtensions_iff
  · obtain ⟨user, project, huser, hproject, hlayered, -⟩ := isLayered_of_resolve h
    refine ⟨user, project, huser, hproject, hlayered.extensions_eq, ?_⟩
    rw [hlayered.extensions_eq]
    cases givenExtensions? env user project with
    | none => exact iff_of_true (fun _ => isPlainExtension_of_mem_default) nofun
    | some texts =>
      rw [Option.map_some, Option.getD_some, forall_isPlain_cleanExtensions_iff]
      simp

/-- The variables of a run. One of them lists extensions, and an empty one among them. -/
def listingVariables : Environment := [("HOME", "/home"), ("EXPOSER_EXTENSIONS", ".ts,, tsx")]

theorem plain_extensions_listed :
    ("ts" ∈ cleanExtensions [".ts"] ∧ "ts".toList.head? ≠ some '.') ∧
      ∃ config, resolve layeredTree listingVariables ⟨"/app/src"⟩ {} = .ok config ∧
        config.extensions = ["ts", "tsx"] ∧ ∀ e ∈ config.extensions, IsPlainExtension e := by
  obtain ⟨hclean, -, hresolved⟩ := plain_extensions_iff layeredTree listingVariables ⟨"/app/src"⟩ {}
  have hmem : "ts" ∈ cleanExtensions [".ts"] := by decide +kernel
  refine ⟨⟨hmem, ((hclean [".ts"]).1 "ts" hmem).2.1⟩, ?_⟩
  have hok : (resolve layeredTree listingVariables ⟨"/app/src"⟩ {}).isOk := by decide +kernel
  have hparts : commaParts ".ts,, tsx" = [".ts", "", " tsx"] := by decide +kernel
  cases h : resolve layeredTree listingVariables ⟨"/app/src"⟩ {} with
  | error fault =>
    rw [h] at hok
    cases hok
  | ok config =>
    obtain ⟨user, project, -, -, hextensions, hplain⟩ := hresolved config h
    have hvariable : listingVariables.text? Setting.extensions.variable = some ".ts,, tsx" :=
      OsString.text?_ofText ".ts,, tsx"
    have hgiven : givenExtensions? listingVariables user project = some [".ts", "", " tsx"] := by
      rw [givenExtensions?, hvariable, Option.map_some, hparts, Option.some_or]
    rw [hgiven] at hextensions hplain
    refine ⟨config, rfl, ?_, hplain.2 ?_⟩
    · rw [hextensions]
      decide +kernel
    · rintro _ ⟨⟩
      decide +kernel

/-- A blank behind a dot stays, unless the extension is cleaned once more. -/
theorem blank_behind_dot_stays :
    HasBlankBehindDots ". js" ∧ cleanExtensions [". js"] = [" js"] ∧ trim " js" ≠ " js" ∧
      cleanExtensions (cleanExtensions [". js"]) = ["js"] := by
  decide +kernel

end Config

end RemoteImports
