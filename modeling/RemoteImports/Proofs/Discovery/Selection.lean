import RemoteImports.Proofs.FileTree.Places
import RemoteImports.Proofs.Glob.Unanchored

/-!
# Which files are selected

The patterns of a selection are tried on the path of a file below the start of the walk, so another
start can give another answer. Patterns that start with a star or a slash do not depend on it: the
path from the top decides alone (`anyMatches_of_isUnanchored`), and files are selected alike
whatever directory they are looked at from (`selects_congr`).
-/

namespace RemoteImports.FileSelection

open FilePath

variable {selection : FileSelection} {patterns includes excludes extensions : List String}
  {parsed : List (List GlobToken)} {place names names' : Location} {p : FilePath}

/-- No pattern of a selection has an anchor. -/
def IsUnanchored (selection : FileSelection) : Prop :=
  ∀ tokens ∈ selection.includes ++ selection.excludes, Glob.IsUnanchored tokens

/-- The text of a pattern starts with a star or a slash. -/
def StartsFreely (pattern : String) : Prop :=
  pattern.toList.head? = some '*' ∨ pattern.toList.head? = some '/'

/-! ## Reading patterns -/

theorem isUnanchored_of_patterns (hpatterns : ∀ pattern ∈ patterns, StartsFreely pattern)
    (h : FileSelection.patterns patterns = .ok parsed) :
    ∀ tokens ∈ parsed, Glob.IsUnanchored tokens := by
  induction patterns generalizing parsed with
  | nil =>
    cases h
    simp
  | cons pattern rest ih =>
    obtain ⟨hpattern, hrest⟩ := List.forall_mem_cons.1 hpatterns
    rw [FileSelection.patterns] at h
    split at h
    · cases h
    rename_i tokens htokens
    obtain ⟨parsed', hparsed', rfl⟩ := map_eq_ok_iff.1 h
    exact List.forall_mem_cons.2
      ⟨Glob.isUnanchored_of_parse hpattern htokens, ih hrest hparsed'⟩

/-- **Patterns that start with a star or a slash** make a selection without anchors. -/
theorem isUnanchored_of_ofPatterns
    (hpatterns : ∀ pattern ∈ includes ++ excludes, StartsFreely pattern)
    (h : ofPatterns extensions includes excludes = .ok selection) : selection.IsUnanchored := by
  obtain ⟨hincludes, hexcludes⟩ := List.forall_mem_append.1 hpatterns
  obtain ⟨parsedExcludes, hparsedExcludes, h⟩ := bind_eq_ok_iff.1 h
  obtain ⟨parsedIncludes, hparsedIncludes, h⟩ := bind_eq_ok_iff.1 h
  cases h
  exact List.forall_mem_append.2 ⟨isUnanchored_of_patterns hincludes hparsedIncludes,
    isUnanchored_of_patterns hexcludes hparsedExcludes⟩

/-! ## Seen from different starts -/

theorem anyMatches_of_isUnanchored (hparsed : ∀ tokens ∈ parsed, Glob.IsUnanchored tokens)
    (hne : names ≠ []) (hnames : ∀ s ∈ names, IsEntryName s) :
    anyMatches parsed (OsString.join names) (Location.path (place ++ names)) =
      parsed.any fun tokens =>
        Glob.isMatch false tokens (Location.path (place ++ names)).toOsString := by
  obtain ⟨above, hbytes⟩ := Location.exists_bytes_path_append place hne
  have hhead := Location.head?_bytes_join hne hnames
  rw [anyMatches, Bool.eq_iff_iff, List.any_eq_true, List.any_eq_true]
  refine exists_congr fun tokens => and_congr_right fun htokens => ?_
  rw [Bool.or_eq_true]
  exact or_iff_right_of_imp (Glob.isMatch_of_after_slash (hparsed tokens htokens) hbytes hhead)

/-- **Without anchors, a file is selected alike** from all directories above it. -/
theorem selects_congr (hselection : selection.IsUnanchored) {down : Location} (hne : names ≠ [])
    (hnames : ∀ s ∈ down ++ names, IsEntryName s) :
    selection.selects (OsString.join names) (Location.path (place ++ down ++ names)) =
      selection.selects (OsString.join (down ++ names))
        (Location.path (place ++ (down ++ names))) := by
  obtain ⟨hincludes, hexcludes⟩ := List.forall_mem_append.1 hselection
  have hnames' : ∀ s ∈ names, IsEntryName s := fun s hs => hnames s (List.mem_append_right _ hs)
  have hne' : down ++ names ≠ [] := List.append_ne_nil_of_right_ne_nil _ hne
  rw [selects, selects, anyMatches_of_isUnanchored hincludes hne hnames',
    anyMatches_of_isUnanchored hexcludes hne hnames',
    anyMatches_of_isUnanchored hincludes hne' hnames,
    anyMatches_of_isUnanchored hexcludes hne' hnames, List.append_assoc]

end RemoteImports.FileSelection
