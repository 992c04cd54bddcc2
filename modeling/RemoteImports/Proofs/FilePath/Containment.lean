import RemoteImports.Proofs.FilePath.NormalForm

/-!
# Paths inside a directory

Containment is decided by components (`isSome_relativeTo_iff`), never by text. Below a normal
absolute directory, the relative path of a normalized target shows entry names alone
(`relativeTo_normalize`), and joined to the directory it is the target again if these are texts
(`join_shown_iff`).
-/

namespace RemoteImports.FilePath

open Component
open OsString (slash dot)

/-- `p` is `dir` followed by at least one more component. -/
def IsBelow (dir p : FilePath) : Prop :=
  ∃ rest : List Component, rest ≠ [] ∧ p.components = dir.components ++ rest

/-! ## Prefixes of components -/

theorem below?_eq_some_iff {dir p : FilePath} {steps : List Component} :
    dir.below? p = some steps ↔ p.components = dir.components ++ steps := by
  rw [below?, List.isPrefixOf?_eq_some_iff_append_eq, eq_comm]

theorem relativeTo_eq_some_iff {dir target : FilePath} {r : String} :
    dir.relativeTo target = some r ↔
      ∃ rest : List Component, rest ≠ [] ∧ target.components = dir.components ++ rest ∧
        r = "/".intercalate (rest.map (·.written.text)) := by
  unfold relativeTo
  split
  · rename_i h
    simp only [reduceCtorEq, false_iff]
    rintro ⟨rest, -, hrest, -⟩
    rw [below?_eq_some_iff.2 hrest] at h
    cases h
  · rename_i h
    have hroot := below?_eq_some_iff.1 h
    simp only [reduceCtorEq, false_iff]
    rintro ⟨rest, hne, hrest, -⟩
    exact hne (List.append_cancel_left (hrest.symm.trans hroot))
  · rename_i steps hne h
    have hsteps := below?_eq_some_iff.1 h
    constructor
    · intro hr
      exact ⟨steps, hne, hsteps, (Option.some.inj hr).symm⟩
    · rintro ⟨rest, -, hrest, rfl⟩
      rw [List.append_cancel_left (hrest.symm.trans hsteps)]

/-- **A relative path exists exactly strictly below the directory.** -/
theorem isSome_relativeTo_iff {dir target : FilePath} :
    (dir.relativeTo target).isSome ↔ IsBelow dir target := by
  rw [Option.isSome_iff_exists]
  constructor
  · rintro ⟨r, hr⟩
    obtain ⟨rest, hne, hrest, -⟩ := relativeTo_eq_some_iff.1 hr
    exact ⟨rest, hne, hrest⟩
  · rintro ⟨rest, hne, hrest⟩
    exact ⟨_, relativeTo_eq_some_iff.2 ⟨rest, hne, hrest, rfl⟩⟩

/-! ## Joined names -/

variable {names more : List OsString}

theorem map_written_name (names : List OsString) : (names.map name).map written = names := by
  rw [List.map_map]
  exact List.map_id names

theorem ofComponents_root_names (names : List OsString) :
    ofComponents (root :: names.map name) = ⟨⟨[slash]⟩ ++ OsString.join names⟩ := by
  rw [ofComponents, map_written_name]

theorem splitOn_join_names (hne : names ≠ []) (h : ∀ s ∈ names, IsEntryName s) :
    (OsString.join names).bytes.splitOn slash = names.map OsString.bytes :=
  OsString.splitOn_bytes_join hne fun s hs => (h s hs).slash_notMem

/-- The piece of an entry name is neither empty nor made of dots. -/
theorem mem_splitOn_join_names (hne : names ≠ []) (h : ∀ s ∈ names, IsEntryName s)
    {piece : List UInt8} (hpiece : piece ∈ (OsString.join names).bytes.splitOn slash) :
    piece ≠ [] ∧ piece ≠ [dot] ∧ piece ≠ [dot, dot] := by
  rw [splitOn_join_names hne h] at hpiece
  obtain ⟨s, hs, rfl⟩ := List.mem_map.1 hpiece
  exact ⟨(h s hs).ne_empty, (h s hs).ne_dot, (h s hs).ne_dots⟩

/-- No piece of a normal absolute path is a dot or two. -/
theorem mem_pieces_ofComponents_root (h : ∀ s ∈ names, IsEntryName s) {piece : List UInt8}
    (hpiece : piece ∈ (ofComponents (root :: names.map name)).pieces) :
    piece ≠ [dot] ∧ piece ≠ [dot, dot] := by
  rw [ofComponents_root_names, pieces, OsString.bytes_append, List.singleton_append,
    Text.splitOn_cons_self] at hpiece
  rcases List.mem_cons.1 hpiece with rfl | hpiece
  · simp
  rcases eq_or_ne names [] with rfl | hne
  · obtain rfl : piece = [] := List.mem_singleton.1 hpiece
    simp
  · exact (mem_splitOn_join_names hne h hpiece).2

/-! ## Shown names -/

theorem isEntryName_ofText_iff {t : String} :
    IsEntryName (.ofText t) ↔ t ≠ "" ∧ t ≠ "." ∧ t ≠ ".." ∧ '/' ∉ t.toList := by
  have hne {u : String} : (OsString.ofText t).bytes ≠ (OsString.ofText u).bytes ↔ t ≠ u :=
    not_congr ⟨fun h => OsString.ofText_injective (OsString.ext h), fun h => h ▸ rfl⟩
  rw [← OsString.slash_mem_ofText_iff, ← hne, ← hne, ← hne]
  exact ⟨fun h => ⟨h.ne_empty, h.ne_dot, h.ne_dots, h.slash_notMem⟩,
    fun ⟨hempty, hdot, hdots, hslash⟩ => ⟨hempty, hdot, hdots, hslash⟩⟩

/-- What is shown of an entry name can be one. -/
theorem IsEntryName.ofText_text {s : OsString} (h : IsEntryName s) :
    IsEntryName (.ofText s.text) := by
  have hne {t : String} (ht : ∀ c ∈ t.toList, c.toNat < 128)
      (hs : s.bytes ≠ (OsString.ofText t).bytes) : s.text ≠ t :=
    fun he => hs (congrArg OsString.bytes (OsString.eq_ofText_of_text_eq ht he))
  exact isEntryName_ofText_iff.2 ⟨hne (by simp) h.ne_empty, hne (by simp) h.ne_dot,
    hne (by simp) h.ne_dots,
    fun hslash => h.slash_notMem (OsString.mem_bytes_of_mem_text (by decide) hslash)⟩

/-- The pieces of shown names are the shown names. -/
theorem splitOn_intercalate_text (hne : names ≠ []) (h : ∀ s ∈ names, IsEntryName s) :
    ("/".intercalate (names.map OsString.text)).toList.splitOn '/' =
      names.map (·.text.toList) := by
  rw [Text.splitOn_toList_intercalate rfl (by simpa using hne), List.map_map]
  · rfl
  · intro text htext
    obtain ⟨s, hs, rfl⟩ := List.mem_map.1 htext
    exact (isEntryName_ofText_iff.1 (h s hs).ofText_text).2.2.2

/-- The piece of a shown name is neither empty nor made of dots. -/
theorem mem_splitOn_intercalate_text (hne : names ≠ []) (h : ∀ s ∈ names, IsEntryName s)
    {piece : List Char}
    (hpiece : piece ∈ ("/".intercalate (names.map OsString.text)).toList.splitOn '/') :
    piece ≠ [] ∧ piece ≠ ['.'] ∧ piece ≠ ['.', '.'] := by
  rw [splitOn_intercalate_text hne h] at hpiece
  obtain ⟨s, hs, rfl⟩ := List.mem_map.1 hpiece
  obtain ⟨hempty, hdot, hdots, -⟩ := isEntryName_ofText_iff.1 (h s hs).ofText_text
  exact ⟨fun he => hempty (String.toList_inj.1 he), fun he => hdot (String.toList_inj.1 he),
    fun he => hdots (String.toList_inj.1 he)⟩

/-! ## Joining a relative path to its directory -/

theorem join_of_isAbsolute {p : FilePath} (dir : FilePath) (h : p.isAbsolute) : dir.join p = p :=
  if_pos h

/-- Whatever is joined to an absolute directory, the result is absolute. -/
theorem isAbsolute_join {dir : FilePath} (h : dir.isAbsolute) (p : FilePath) :
    (dir.join p).isAbsolute := by
  have happend : ∀ more : OsString, isAbsolute ⟨dir.toOsString ++ more⟩ := by
    intro more
    simp only [isAbsolute, decide_eq_true_eq] at h ⊢
    rw [OsString.bytes_append, List.head?_append, h]
    rfl
  unfold join
  split_ifs
  · assumption
  · exact happend _
  · rw [OsString.append_assoc]
    exact happend _

theorem not_isAbsolute_join_names (hne : names ≠ []) (h : ∀ s ∈ names, IsEntryName s) :
    isAbsolute ⟨OsString.join names⟩ = false := by
  rw [← Bool.not_eq_true, isAbsolute, decide_eq_true_eq, List.head?_eq_some_iff]
  rintro ⟨rest, hrest⟩
  -- a leading slash would leave an empty first piece
  have hnil : [] ∈ (OsString.join names).bytes.splitOn slash := by
    rw [hrest, Text.splitOn_cons_self]
    exact List.mem_cons_self
  exact (mem_splitOn_join_names hne h hnil).1 rfl

/-- A normal absolute path ends in a slash only at the top. -/
theorem getLast?_ofComponents_root (hne : names ≠ []) (h : ∀ s ∈ names, IsEntryName s) :
    (ofComponents (root :: names.map name)).bytes.getLast? ≠ some slash := by
  obtain ⟨init, last, rfl⟩ := List.eq_nil_or_concat' names |>.resolve_left hne
  have hlast : IsEntryName last := h last (by simp)
  obtain ⟨before, hbefore⟩ : ∃ before : OsString,
      ofComponents (root :: (init ++ [last]).map name) = ⟨before ++ last⟩ := by
    rw [ofComponents_root_names]
    rcases eq_or_ne init [] with rfl | hinit
    · exact ⟨⟨[slash]⟩, by rw [List.nil_append, OsString.join_singleton]⟩
    · refine ⟨⟨[slash]⟩ ++ (OsString.join init ++ ⟨[slash]⟩), ?_⟩
      rw [OsString.join_append hinit (by simp), OsString.join_singleton]
      simp only [OsString.append_assoc]
  rw [hbefore, OsString.bytes_append, List.getLast?_append_of_ne_nil _ hlast.ne_empty]
  exact fun he => hlast.slash_notMem (List.mem_of_getLast? he)

/-- **Joining names to a normal absolute directory** puts them after its own. -/
theorem join_relative (h : ∀ s ∈ names, IsEntryName s) (hne : more ≠ [])
    (hmore : ∀ s ∈ more, IsEntryName s) :
    (ofComponents (root :: names.map name)).join ⟨OsString.join more⟩ =
      ofComponents (root :: (names ++ more).map name) := by
  rw [join, not_isAbsolute_join_names hne hmore, if_neg Bool.false_ne_true]
  rcases eq_or_ne names [] with rfl | hnames
  · rw [List.nil_append, ofComponents_root_names more]
    rfl
  have hempty : (ofComponents (root :: names.map name)).bytes ≠ [] := by
    rw [ofComponents_root_names]
    exact List.cons_ne_nil _ _
  rw [if_neg (not_or.2 ⟨hempty, getLast?_ofComponents_root hnames h⟩), ofComponents_root_names,
    ofComponents_root_names, OsString.join_append hnames hne]
  simp only [OsString.append_assoc]

theorem ofText_intercalate_text (names : List OsString) :
    OsString.ofText ("/".intercalate (names.map OsString.text)) =
      OsString.join (names.map fun s => .ofText s.text) := by
  rw [OsString.ofText_intercalate, List.map_map]
  rfl

/-- Names are what is shown of them if they are texts. -/
theorem map_ofText_text_eq_iff : (names.map fun s => .ofText s.text) = names ↔
    ∀ s ∈ names, s.IsUnicode := by
  simp only [OsString.isUnicode_iff]
  simpa using @List.map_inj_left _ _ names (fun s => OsString.ofText s.text) id

theorem isEntryName_of_mem_map (h : ∀ s ∈ names, IsEntryName s) :
    ∀ s ∈ names.map fun s => OsString.ofText s.text, IsEntryName s := by
  intro s hs
  obtain ⟨t, ht, rfl⟩ := List.mem_map.1 hs
  exact (h t ht).ofText_text

theorem ofComponents_root_inj {others : List OsString} (h : ∀ s ∈ names, IsEntryName s)
    (hothers : ∀ s ∈ others, IsEntryName s) :
    ofComponents (root :: names.map name) = ofComponents (root :: others.map name) ↔
      names = others := by
  constructor
  · intro he
    have hcomponents := congrArg components he
    rw [components_ofComponents_root (isInner_of_mem_names h),
      components_ofComponents_root (isInner_of_mem_names hothers)] at hcomponents
    exact List.map_injective_iff.2 (fun _ _ => Component.name.inj) (List.cons.inj hcomponents).2
  · rintro rfl
    rfl

/-- **Joining shown names to a normal absolute directory** puts the names themselves after its own
if they are texts. -/
theorem join_shown_iff (h : ∀ s ∈ names, IsEntryName s) (hne : more ≠ [])
    (hmore : ∀ s ∈ more, IsEntryName s) :
    (ofComponents (root :: names.map name)).join ("/".intercalate (more.map OsString.text)) =
      ofComponents (root :: (names ++ more).map name) ↔ ∀ s ∈ more, s.IsUnicode := by
  rw [FilePath.mk, ofText_intercalate_text, join_relative h (by simpa using hne)
    (isEntryName_of_mem_map hmore), ofComponents_root_inj
    (List.forall_mem_append.2 ⟨h, isEntryName_of_mem_map hmore⟩)
    (List.forall_mem_append.2 ⟨h, hmore⟩), List.append_cancel_left_eq, map_ofText_text_eq_iff]

/-- **The relative path of a normalized target** below a normal absolute directory: entry names,
which follow those of the directory in the target. -/
theorem relativeTo_normalize {p : FilePath} {r : String}
    (h : (ofComponents (root :: names.map name)).relativeTo p.normalize = some r)
    (hnames : ∀ s ∈ names, IsEntryName s) :
    ∃ more : List OsString, more ≠ [] ∧ (∀ s ∈ more, IsEntryName s) ∧
      p.normalize = ofComponents (root :: (names ++ more).map name) ∧
      r = "/".intercalate (more.map OsString.text) := by
  obtain ⟨rest, hne, hrest, rfl⟩ := relativeTo_eq_some_iff.1 h
  rw [components_ofComponents_root (isInner_of_mem_names hnames)] at hrest
  obtain ⟨all, hall, hp⟩ := normalize_of_head? (p := p) (by rw [hrest]; rfl)
  rw [hp, components_ofComponents_root (isInner_of_mem_names hall)] at hrest
  obtain ⟨own, more, rfl, hown, rfl⟩ := List.map_eq_append_iff.1 (List.cons.inj hrest).2
  obtain rfl : own = names := by
    simpa only [map_written_name] using congrArg (List.map written) hown
  refine ⟨more, by simpa using hne, fun s hs => hall s (by simp [hs]), hp, ?_⟩
  rw [List.map_map]
  rfl

end RemoteImports.FilePath
