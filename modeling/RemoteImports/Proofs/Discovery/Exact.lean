import RemoteImports.Proofs.Discovery
import RemoteImports.Proofs.Discovery.Walk
import RemoteImports.Proofs.FilePath.Containment

/-!
# Exactly the eligible files

Extensions and patterns say which of the files below a directory are eligible (`IsEligible`). If a
pattern is malformed, there is no discovery in any tree; otherwise exactly the eligible files are
found, each once and in order (`discoverFiles_exact`). A file is matched by each pattern on its own
(`anyMatches_eq`), so the lists may be given in any order and with repetitions, and one more exclude
pattern takes out what it matches.
-/

namespace RemoteImports

open FilePath

variable {patterns extensions includes excludes extensions' includes' excludes' : List String}
  {parsed : List (List GlobToken)} {selection : FileSelection} {names : Location}
  {root p : FilePath} {pattern : String} {below : OsString}

/-- The path from a directory down to a path at or below it. -/
def FilePath.wayDown? (dir p : FilePath) : Option OsString :=
  (dir.below? p).map fun steps => OsString.join (steps.map Component.written)

/-! ## Single patterns -/

namespace Glob

/-- A pattern that breaks the rules of patterns. -/
def IsMalformed (pattern : String) : Prop := ∃ fault, parse false pattern = .error fault

/-- Whether a pattern matches a path. -/
def matchesPath (pattern : String) (path : OsString) : Bool :=
  match parse false pattern with
  | .ok tokens => isMatch false tokens path
  | .error _ => false

/-- Whether a pattern matches a file, by its path or by its path below a directory. -/
def matchesFile (root : FilePath) (pattern : String) (p : FilePath) : Bool :=
  (root.wayDown? p).any (matchesPath pattern) || matchesPath pattern p.toOsString

theorem not_isMalformed_iff :
    ¬ IsMalformed pattern ↔ ∃ tokens, parse false pattern = .ok tokens := by
  unfold IsMalformed
  cases parse false pattern <;> simp

instance decidableIsMalformed (pattern : String) : Decidable (IsMalformed pattern) :=
  match h : parse false pattern with
  | .error fault => isTrue ⟨fault, h⟩
  | .ok tokens => isFalse (not_isMalformed_iff.2 ⟨tokens, h⟩)

theorem matchesPath_of_parse {tokens : List GlobToken} (h : parse false pattern = .ok tokens)
    (path : OsString) : matchesPath pattern path = isMatch false tokens path := by
  rw [matchesPath, h]

end Glob

/-! ## Lists of patterns -/

namespace FileSelection

theorem exists_patterns (h : ∀ pattern ∈ patterns, ¬ Glob.IsMalformed pattern) :
    ∃ parsed, FileSelection.patterns patterns = .ok parsed := by
  induction patterns with
  | nil => exact ⟨[], rfl⟩
  | cons pattern rest ih =>
    obtain ⟨hpattern, hrest⟩ := List.forall_mem_cons.1 h
    obtain ⟨tokens, htokens⟩ := Glob.not_isMalformed_iff.1 hpattern
    obtain ⟨parsed, hparsed⟩ := ih hrest
    exact ⟨tokens :: parsed, by rw [FileSelection.patterns, htokens, hparsed]; rfl⟩

/-- A malformed pattern is reported, the first one in the list. -/
theorem exists_patterns_error (h : ∃ pattern ∈ patterns, Glob.IsMalformed pattern) :
    ∃ pattern ∈ patterns, ∃ fault, Glob.parse false pattern = .error fault ∧
      FileSelection.patterns patterns = .error (.glob pattern fault) := by
  induction patterns with
  | nil => simp at h
  | cons pattern rest ih =>
    rw [FileSelection.patterns]
    cases hpattern : Glob.parse false pattern with
    | error fault => exact ⟨pattern, List.mem_cons_self, fault, hpattern, rfl⟩
    | ok tokens =>
      have hnot : ¬ Glob.IsMalformed pattern := Glob.not_isMalformed_iff.2 ⟨tokens, hpattern⟩
      have hrest := ((List.exists_mem_cons_iff _ _ _).1 h).resolve_left hnot
      obtain ⟨other, hother, fault, hfault, herror⟩ := ih hrest
      exact ⟨other, List.mem_cons_of_mem pattern hother, fault, hfault, by rw [herror]; rfl⟩

theorem isEmpty_of_patterns (h : FileSelection.patterns patterns = .ok parsed) :
    parsed.isEmpty = patterns.isEmpty := by
  cases patterns with
  | nil =>
    cases h
    rfl
  | cons pattern rest =>
    rw [FileSelection.patterns] at h
    split at h
    · cases h
    obtain ⟨parsed, -, rfl⟩ := map_eq_ok_iff.1 h
    rfl

/-- **Patterns match one by one.** -/
theorem anyMatches_eq (h : FileSelection.patterns patterns = .ok parsed) (below : OsString)
    (p : FilePath) :
    anyMatches parsed below p = patterns.any fun pattern =>
      Glob.matchesPath pattern below || Glob.matchesPath pattern p.toOsString := by
  induction patterns generalizing parsed with
  | nil =>
    cases h
    rfl
  | cons pattern rest ih =>
    rw [FileSelection.patterns] at h
    split at h
    · cases h
    rename_i tokens htokens
    obtain ⟨parsed, hparsed, rfl⟩ := map_eq_ok_iff.1 h
    rw [List.any_cons, ← ih hparsed, Glob.matchesPath_of_parse htokens,
      Glob.matchesPath_of_parse htokens]
    rfl

end FileSelection

/-- Extensions and patterns let a file below a directory pass. -/
structure IsSelected (extensions includes excludes : List String) (root p : FilePath) : Prop where
  extension : ∃ extension ∈ extensions, p.extension? = some extension
  not_excluded : ∀ pattern ∈ excludes, Glob.matchesFile root pattern p = false
  included : includes = [] ∨ ∃ pattern ∈ includes, Glob.matchesFile root pattern p

theorem isSelected_iff :
    IsSelected extensions includes excludes root p ↔
      (∃ extension ∈ extensions, p.extension? = some extension) ∧
        (∀ pattern ∈ excludes, Glob.matchesFile root pattern p = false) ∧
        (includes = [] ∨ ∃ pattern ∈ includes, Glob.matchesFile root pattern p) :=
  ⟨fun h => ⟨h.extension, h.not_excluded, h.included⟩, fun h => ⟨h.1, h.2.1, h.2.2⟩⟩

/-- One more exclude pattern takes out what it matches. -/
theorem isSelected_cons_iff :
    IsSelected extensions includes (pattern :: excludes) root p ↔
      IsSelected extensions includes excludes root p ∧
        Glob.matchesFile root pattern p = false := by
  rw [isSelected_iff, isSelected_iff, List.forall_mem_cons]
  tauto

/-- What lists select is up to their members. -/
theorem isSelected_congr (hextensions : ∀ e, e ∈ extensions ↔ e ∈ extensions')
    (hincludes : ∀ pattern, pattern ∈ includes ↔ pattern ∈ includes')
    (hexcludes : ∀ pattern, pattern ∈ excludes ↔ pattern ∈ excludes') :
    IsSelected extensions includes excludes root p ↔
      IsSelected extensions' includes' excludes' root p := by
  rw [isSelected_iff, isSelected_iff, List.eq_nil_iff_forall_not_mem,
    List.eq_nil_iff_forall_not_mem]
  simp only [hextensions, hincludes, hexcludes]

namespace FileSelection

theorem exists_ofPatterns (h : ∀ pattern ∈ excludes ++ includes, ¬ Glob.IsMalformed pattern) :
    ∃ selection, ofPatterns extensions includes excludes = .ok selection := by
  obtain ⟨hexcludes, hincludes⟩ := List.forall_mem_append.1 h
  obtain ⟨parsedExcludes, hparsedExcludes⟩ := exists_patterns hexcludes
  obtain ⟨parsedIncludes, hparsedIncludes⟩ := exists_patterns hincludes
  exact ⟨⟨extensions, parsedIncludes, parsedExcludes⟩, by
    rw [ofPatterns, hparsedExcludes, hparsedIncludes]; rfl⟩

theorem exists_ofPatterns_error (h : ∃ pattern ∈ excludes ++ includes, Glob.IsMalformed pattern) :
    ∃ pattern ∈ excludes ++ includes, ∃ fault, Glob.parse false pattern = .error fault ∧
      ofPatterns extensions includes excludes = .error (.glob pattern fault) := by
  by_cases hexcludes : ∃ pattern ∈ excludes, Glob.IsMalformed pattern
  · obtain ⟨pattern, hpattern, fault, hfault, herror⟩ := exists_patterns_error hexcludes
    exact ⟨pattern, List.mem_append_left _ hpattern, fault, hfault, by rw [ofPatterns, herror]; rfl⟩
  · have hincludes : ∃ pattern ∈ includes, Glob.IsMalformed pattern := by
      obtain ⟨pattern, hpattern, hmalformed⟩ := h
      refine ⟨pattern, (List.mem_append.1 hpattern).resolve_left fun hmem => ?_, hmalformed⟩
      exact hexcludes ⟨pattern, hmem, hmalformed⟩
    obtain ⟨pattern, hpattern, fault, hfault, herror⟩ := exists_patterns_error hincludes
    obtain ⟨parsed, hparsed⟩ := @exists_patterns excludes fun pattern hmem hmalformed =>
      hexcludes ⟨pattern, hmem, hmalformed⟩
    exact ⟨pattern, List.mem_append_right _ hpattern, fault, hfault, by
      rw [ofPatterns, hparsed, herror]; rfl⟩

/-- **A selection selects** what its extensions and patterns let pass. -/
theorem selects_iff (h : ofPatterns extensions includes excludes = .ok selection)
    (hbelow : root.wayDown? p = some below) :
    selection.selects below p ↔ IsSelected extensions includes excludes root p := by
  obtain ⟨parsedExcludes, hexcludes, h⟩ := bind_eq_ok_iff.1 h
  obtain ⟨parsedIncludes, hincludes, h⟩ := bind_eq_ok_iff.1 h
  cases h
  have hmatches (pattern : String) : Glob.matchesFile root pattern p =
      (Glob.matchesPath pattern below || Glob.matchesPath pattern p.toOsString) := by
    rw [Glob.matchesFile, hbelow]
    rfl
  rw [selects, anyMatches_eq hexcludes, anyMatches_eq hincludes, isEmpty_of_patterns hincludes,
    isSelected_iff]
  simp only [hmatches]
  cases p.extension? <;> simp [and_assoc]

end FileSelection

/-! ## Eligible files -/

/-- Seen from a directory, the path of names below it is these names joined by slashes. -/
theorem FilePath.wayDown?_along (h : ∀ s ∈ names, IsEntryName s) :
    root.wayDown? (root.along names) = some (OsString.join names) := by
  rw [wayDown?, below?_eq_some_iff.2 (components_along root h), Option.map_some, map_written_name]

namespace FileTree

variable {tree : FileTree} {env : Environment} {place : Location}

/-- The files below a directory that extensions and patterns select. -/
def discoverFiles (tree : FileTree) (env : Environment) (root : FilePath)
    (extensions includes excludes : List String) : Except Failure (List FilePath) :=
  (FileSelection.ofPatterns extensions includes excludes).map (tree.discover env root)

/-- A file that a discovery has to find: names lead to it that a walk follows, and extensions and
patterns let it pass. -/
structure IsEligible (tree : FileTree) (env : Environment) (root : FilePath) (place : Location)
    (extensions includes excludes : List String) (p : FilePath) : Prop where
  isListed : ∃ names, p = root.along names ∧
    tree.IsListed (IgnoreScope.atStart tree env place) root place names
  isSelected : IsSelected extensions includes excludes root p

/-- **Discovered files are the eligible ones.** -/
theorem mem_discover_iff_isEligible (htree : tree.IsProper)
    (hlocate : tree.locate root = .ok place) (hplace : tree.holdsDirectory place)
    (h : FileSelection.ofPatterns extensions includes excludes = .ok selection) :
    p ∈ tree.discover env root selection ↔
      tree.IsEligible env root place extensions includes excludes p := by
  have hbelow {names : Location}
      (hlisted : tree.IsListed (IgnoreScope.atStart tree env place) root place names) :
      root.wayDown? (root.along names) = some (OsString.join names) :=
    wayDown?_along (hlisted.isEntryName htree)
  rw [mem_discover_iff]
  constructor
  · rintro ⟨found, hfound, hselects, rfl⟩
    obtain ⟨names, rfl, hlisted⟩ := (mem_walk_iff_isListed htree hlocate hplace).1 hfound
    exact ⟨⟨names, rfl, hlisted⟩, (FileSelection.selects_iff h (hbelow hlisted)).1 hselects⟩
  · rintro ⟨⟨names, rfl, hlisted⟩, hselected⟩
    refine ⟨⟨root.along names, names⟩, ?_, ?_, rfl⟩
    · exact (mem_walk_iff_isListed htree hlocate hplace).2 ⟨names, rfl, hlisted⟩
    · exact (FileSelection.selects_iff h (hbelow hlisted)).2 hselected

theorem exists_discoverFiles (htree : tree.IsProper) (hlocate : tree.locate root = .ok place)
    (hplace : tree.holdsDirectory place)
    (h : ∀ pattern ∈ excludes ++ includes, ¬ Glob.IsMalformed pattern) :
    ∃ files, tree.discoverFiles env root extensions includes excludes = .ok files ∧
      files.Pairwise (fun p q => p.before q) ∧
      ∀ p, p ∈ files ↔ tree.IsEligible env root place extensions includes excludes p := by
  obtain ⟨selection, hselection⟩ := @FileSelection.exists_ofPatterns extensions _ _ h
  refine ⟨tree.discover env root selection, ?_, pairwise_before_discover htree env root selection,
    fun p => mem_discover_iff_isEligible htree hlocate hplace hselection⟩
  rw [discoverFiles, hselection]
  rfl

/-- A discovery gives the list in the order of paths that has the eligible files as its members. -/
theorem discoverFiles_eq_ok (htree : tree.IsProper) (hlocate : tree.locate root = .ok place)
    (hplace : tree.holdsDirectory place)
    (h : ∀ pattern ∈ excludes ++ includes, ¬ Glob.IsMalformed pattern) {files : List FilePath}
    (hordered : files.Pairwise fun p q => p.before q)
    (hfiles : ∀ p, p ∈ files ↔ tree.IsEligible env root place extensions includes excludes p) :
    tree.discoverFiles env root extensions includes excludes = .ok files := by
  obtain ⟨found, hfound, hfoundOrdered, hmem⟩ :=
    @exists_discoverFiles extensions includes excludes root tree env place htree hlocate hplace h
  rw [hfound, eq_of_pairwise_before hfoundOrdered hordered fun p => (hmem p).trans (hfiles p).symm]

theorem isEligible_cons_iff :
    tree.IsEligible env root place extensions includes (pattern :: excludes) p ↔
      tree.IsEligible env root place extensions includes excludes p ∧
        Glob.matchesFile root pattern p = false := by
  constructor
  · rintro ⟨hlisted, hselected⟩
    obtain ⟨hselected, hmatches⟩ := isSelected_cons_iff.1 hselected
    exact ⟨⟨hlisted, hselected⟩, hmatches⟩
  · rintro ⟨⟨hlisted, hselected⟩, hmatches⟩
    exact ⟨hlisted, isSelected_cons_iff.2 ⟨hselected, hmatches⟩⟩

/-- **A discovery finds exactly the eligible files**, once and in order, unless a pattern is
malformed, which is reported whatever the tree is. One more exclude pattern takes out the files that
it matches, and neither order nor repetition matters. -/
theorem discoverFiles_exact (extensions includes excludes : List String) :
    ((∃ pattern ∈ excludes ++ includes, Glob.IsMalformed pattern) →
      ∃ pattern ∈ excludes ++ includes, ∃ fault, Glob.parse false pattern = .error fault ∧
        ∀ tree env root, discoverFiles tree env root extensions includes excludes =
          .error (.glob pattern fault)) ∧
    ((∀ pattern ∈ excludes ++ includes, ¬ Glob.IsMalformed pattern) →
      ∀ (tree : FileTree) (env : Environment) (root : FilePath) (place : Location),
      tree.IsProper → tree.locate root = .ok place → tree.holdsDirectory place →
      ∃ files, tree.discoverFiles env root extensions includes excludes = .ok files ∧
        files.Pairwise (fun p q => p.before q) ∧
        (∀ p, p ∈ files ↔ tree.IsEligible env root place extensions includes excludes p) ∧
        (∀ pattern, ¬ Glob.IsMalformed pattern →
          tree.discoverFiles env root extensions includes (pattern :: excludes) =
            .ok (files.filter fun p => !Glob.matchesFile root pattern p)) ∧
        ∀ extensions' includes' excludes' : List String,
          (∀ e, e ∈ extensions ↔ e ∈ extensions') →
          (∀ pattern, pattern ∈ includes ↔ pattern ∈ includes') →
          (∀ pattern, pattern ∈ excludes ↔ pattern ∈ excludes') →
          tree.discoverFiles env root extensions' includes' excludes' = .ok files) := by
  constructor
  · intro h
    obtain ⟨pattern, hpattern, fault, hfault, herror⟩ := FileSelection.exists_ofPatterns_error h
    refine ⟨pattern, hpattern, fault, hfault, fun tree env root => ?_⟩
    rw [discoverFiles, herror]
    rfl
  intro h tree env root place htree hlocate hplace
  obtain ⟨files, hfiles, hordered, hmem⟩ :=
    @exists_discoverFiles extensions includes excludes root tree env place htree hlocate hplace h
  refine ⟨files, hfiles, hordered, hmem, ?_, ?_⟩
  · intro pattern hpattern
    have hformed : ∀ other ∈ pattern :: excludes ++ includes, ¬ Glob.IsMalformed other :=
      List.forall_mem_cons.2 ⟨hpattern, h⟩
    refine discoverFiles_eq_ok htree hlocate hplace hformed (hordered.filter _) fun p => ?_
    rw [List.mem_filter, hmem, isEligible_cons_iff, Bool.not_eq_true']
  · intro extensions' includes' excludes' hextensions hincludes hexcludes
    have hformed : ∀ pattern ∈ excludes' ++ includes', ¬ Glob.IsMalformed pattern := by
      simpa only [List.mem_append, hincludes, hexcludes] using h
    refine discoverFiles_eq_ok htree hlocate hplace hformed hordered fun p => ?_
    rw [hmem]
    exact ⟨fun h => ⟨h.isListed, (isSelected_congr hextensions hincludes hexcludes).1 h.isSelected⟩,
      fun h => ⟨h.isListed, (isSelected_congr hextensions hincludes hexcludes).2 h.isSelected⟩⟩

/-- A directory with a source file, its test, and a dependency. -/
def sourceTree : FileTree :=
  ((FileTree.empty.put ["app", "src", "main.ts"] (.file (.text ""))).put
    ["app", "src", "main.test.ts"] (.file (.text ""))).put
    ["app", "node_modules", "main.ts"] (.file (.text ""))

theorem isProper_sourceTree : sourceTree.IsProper :=
  ((isProper_empty.put (.file _) (by decide) (by decide)).put (.file _) (by decide)
    (by decide)).put (.file _) (by decide) (by decide)

theorem discoverFiles_sourceTree :
    (∃ fault, sourceTree.discoverFiles [] ⟨"/app"⟩ ["ts"] [] ["["] = .error (.glob "[" fault)) ∧
    ∃ files, sourceTree.discoverFiles [] ⟨"/app"⟩ ["ts"] [] ["**/*.test.ts"] = .ok files ∧
      files = [⟨"/app/src/main.ts"⟩] ∧
      sourceTree.IsEligible [] ⟨"/app"⟩ ["app"] ["ts"] [] ["**/*.test.ts"] ⟨"/app/src/main.ts"⟩ ∧
      sourceTree.discoverFiles [] ⟨"/app"⟩ ["ts"] [] ["src/*", "**/*.test.ts"] = .ok [] := by
  have hformed : ∀ pattern ∈ ["**/*.test.ts"] ++ [], ¬ Glob.IsMalformed pattern := by
    decide +kernel
  obtain ⟨pattern, hpattern, fault, -, herror⟩ :=
    (discoverFiles_exact ["ts"] [] ["["]).1 ⟨"[", by simp, by decide +kernel⟩
  obtain ⟨files, hfiles, -, hmem, hexclude, -⟩ :=
    (discoverFiles_exact ["ts"] [] ["**/*.test.ts"]).2 hformed sourceTree [] ⟨"/app"⟩ ["app"]
      isProper_sourceTree (by decide +kernel) (by decide +kernel)
  have hlist : sourceTree.discoverFiles [] ⟨"/app"⟩ ["ts"] [] ["**/*.test.ts"] =
      .ok [⟨"/app/src/main.ts"⟩] := by decide +kernel
  obtain rfl : files = [⟨"/app/src/main.ts"⟩] := Except.ok.inj (hfiles.symm.trans hlist)
  obtain rfl : pattern = "[" := by simpa using hpattern
  refine ⟨⟨fault, herror _ _ _⟩, _, hlist, rfl, (hmem _).1 (by simp), ?_⟩
  rw [hexclude "src/*" (by decide +kernel)]
  decide +kernel

end FileTree

end RemoteImports
