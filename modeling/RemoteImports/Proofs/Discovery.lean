import RemoteImports.Discovery
import RemoteImports.Proofs.FilePath.Child
import RemoteImports.Proofs.FilePath.Order
import RemoteImports.Proofs.FileTree.Proper

/-!
# Discovered files

A walk through a proper tree finds every file once (`Spread.filesAt`): what lies under different
names of a directory has different paths. So the discovered files are in the strict order of paths
(`pairwise_before_discover`), each of them at or below the start (`prefix_of_mem_discover`).
-/

namespace RemoteImports

open FilePath FilePath.Component

variable {tree : FileTree}

/-- Files that lie at or below a path, no two of them at the same place. -/
structure Spread (p : FilePath) (files : List FoundFile) : Prop where
  isPrefix : ∀ file ∈ files, p.components <+: file.path.components
  nodup : (files.map (·.path.components)).Nodup

theorem Spread.nil (p : FilePath) : Spread p [] := ⟨by simp, by simp⟩

theorem Spread.singleton (p : FilePath) (below : List OsString) : Spread p [⟨p, below⟩] :=
  ⟨by simp, by simp⟩

/-- Two names after the same path are equal if one list goes on with both. -/
theorem eq_of_prefix_concat {start all : List Component} {s t : OsString}
    (hs : start ++ [name s] <+: all) (ht : start ++ [name t] <+: all) : s = t := by
  have hprefix := List.prefix_of_prefix_length_le hs ht (by simp)
  have heq := hprefix.eq_of_length (by simp)
  simpa using heq

/-- The files below the entries of a directory, if those below each entry are spread out. -/
theorem Spread.filesIn {entries : List (OsString × Entry)} (hnodup : (entries.map Prod.fst).Nodup)
    (hnames : ∀ entry ∈ entries, IsFileName entry.1)
    (h : ∀ entry ∈ entries, ∀ scope p below, Spread p (tree.filesAt scope p below entry.2))
    (scope : IgnoreScope) (dir : FilePath) (below : List OsString) :
    (∀ file ∈ tree.filesIn scope dir below entries, ∃ entry ∈ entries,
      dir.components ++ [name entry.1] <+: file.path.components) ∧
    ((tree.filesIn scope dir below entries).map (·.path.components)).Nodup := by
  induction entries with
  | nil => simp [FileTree.filesIn]
  | cons entry rest ih =>
    obtain ⟨s, e⟩ := entry
    rw [List.map_cons, List.nodup_cons] at hnodup
    obtain ⟨hs, hnames⟩ := List.forall_mem_cons.1 hnames
    obtain ⟨he, h⟩ := List.forall_mem_cons.1 h
    obtain ⟨hrest, hrestNodup⟩ := ih hnodup.2 hnames h
    have hfirst : Spread (dir.child s) (if isSkippedName s then []
        else tree.filesAt scope (dir.child s) (below ++ [s]) e) := by
      split
      · exact .nil _
      · exact he _ _ _
    have hprefix : ∀ file ∈ (if isSkippedName s then []
        else tree.filesAt scope (dir.child s) (below ++ [s]) e),
        dir.components ++ [name s] <+: file.path.components := by
      intro file hfile
      rw [← components_child dir hs.toIsEntryName]
      exact hfirst.isPrefix file hfile
    rw [FileTree.filesIn]
    constructor
    · intro file hfile
      rcases List.mem_append.1 hfile with hfile | hfile
      · exact ⟨(s, e), List.mem_cons_self, hprefix file hfile⟩
      · obtain ⟨entry, hentry, hfile⟩ := hrest file hfile
        exact ⟨entry, List.mem_cons_of_mem _ hentry, hfile⟩
    · rw [List.map_append, List.nodup_append]
      refine ⟨hfirst.nodup, hrestNodup, fun cs hcs ds hds heq => ?_⟩
      -- a path below both would go on with two names
      obtain ⟨file, hfile, rfl⟩ := List.mem_map.1 hcs
      obtain ⟨other, hother, rfl⟩ := List.mem_map.1 hds
      obtain ⟨entry, hentry, hother⟩ := hrest other hother
      have hfile := hprefix file hfile
      rw [heq] at hfile
      obtain rfl := eq_of_prefix_concat hfile hother
      exact hnodup.1 (List.mem_map.2 ⟨entry, hentry, rfl⟩)

/-- **Every file is found once.** -/
theorem Spread.filesAt {e : Entry} (h : e.IsProper) (scope : IgnoreScope) (p : FilePath)
    (below : List OsString) : Spread p (tree.filesAt scope p below e) := by
  induction h generalizing scope p below with
  | file content =>
    rw [FileTree.filesAt]
    split
    · exact .nil p
    · exact .singleton p below
  | link target =>
    rw [FileTree.filesAt]
    split
    · exact .nil p
    · exact .singleton p below
  | directory hnodup hnames _ ih =>
    rw [FileTree.filesAt]
    split
    · exact .nil p
    · obtain ⟨hin, hinNodup⟩ := Spread.filesIn hnodup hnames ih (scope.enter tree p) p below
      refine ⟨fun file hfile => ?_, hinNodup⟩
      obtain ⟨entry, -, hfile⟩ := hin file hfile
      exact (List.prefix_append _ _).trans hfile

namespace FileTree

variable {env : Environment} {root : FilePath} {selection : FileSelection} {file : FilePath}

theorem spread_walk (h : tree.IsProper) (env : Environment) (root : FilePath) :
    Spread root (tree.walk env root) := by
  unfold walk
  split
  · exact .nil root
  · split
    · rename_i entries hentries
      cases h.at? hentries with
      | directory hnodup hnames hproper =>
        obtain ⟨hin, hinNodup⟩ := Spread.filesIn hnodup hnames
          (fun entry hentry scope p below => Spread.filesAt (hproper entry hentry) scope p below)
          ((IgnoreScope.atStart tree env _).enter tree root) root []
        refine ⟨fun file hfile => ?_, hinNodup⟩
        obtain ⟨entry, -, hfile⟩ := hin file hfile
        exact (List.prefix_append _ _).trans hfile
    · exact .singleton root []
    · exact .nil root

/-- The files that a discovery gives are those of the walk that are selected. -/
theorem mem_discover_iff :
    file ∈ tree.discover env root selection ↔ ∃ found ∈ tree.walk env root,
      selection.selects (OsString.join found.below) found.path ∧ found.path = file := by
  unfold discover
  simp only [List.mem_mergeSort, List.mem_map, List.mem_filter]
  simp only [and_assoc]

/-- **Discovered files are in the strict order of paths.** -/
theorem pairwise_before_discover (h : tree.IsProper) (env : Environment) (root : FilePath)
    (selection : FileSelection) :
    (tree.discover env root selection).Pairwise fun p q => p.before q := by
  refine pairwise_before_mergeSort ?_
  rw [List.map_map]
  exact (spread_walk h env root).nodup.sublist (List.filter_sublist.map _)

theorem prefix_of_mem_discover (h : tree.IsProper)
    (hfile : file ∈ tree.discover env root selection) :
    root.components <+: file.components := by
  obtain ⟨found, hfound, -, rfl⟩ := mem_discover_iff.1 hfile
  exact (spread_walk h env root).isPrefix found hfound

end FileTree

end RemoteImports
