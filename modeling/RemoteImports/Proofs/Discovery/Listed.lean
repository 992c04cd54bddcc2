import RemoteImports.Discovery
import RemoteImports.Proofs.FileTree.Places
import RemoteImports.Proofs.FileTree.Write

/-!
# Which files a walk lists

Names lead from a directory to a file that a walk lists if there are directories on the way, no
links, and nothing is skipped or ignored (`FileTree.IsListed`). Whether an entry is ignored is up to
the scope inside of its directory, after all directories on the way to it have been entered
(`IgnoreScope.along`). A walk finds these files and no others, whatever the path is that it starts
from (`mem_walk_iff_isListed`).
-/

namespace RemoteImports

open FilePath

/-! ## Names below a directory -/

namespace FilePath

/-- The path of what some names lead to from a directory. -/
def along (dir : FilePath) (names : List OsString) : FilePath := names.foldl child dir

@[simp]
theorem along_nil (dir : FilePath) : dir.along [] = dir := rfl

@[simp]
theorem along_cons (dir : FilePath) (s : OsString) (names : List OsString) :
    dir.along (s :: names) = (dir.child s).along names := rfl

/-- The components of such a path are those of the directory and the names. -/
theorem components_along (dir : FilePath) {names : List OsString}
    (h : ∀ s ∈ names, IsEntryName s) :
    (dir.along names).components = dir.components ++ names.map Component.name := by
  induction names generalizing dir with
  | nil => simp
  | cons s rest ih =>
    obtain ⟨hs, hrest⟩ := List.forall_mem_cons.1 h
    rw [along_cons, ih _ hrest, components_child dir hs, List.map_cons, List.append_assoc,
      List.singleton_append]

end FilePath

theorem Location.along_path {place names : Location} (h : ∀ s ∈ place ++ names, IsEntryName s) :
    place.path.along names = Location.path (place ++ names) := by
  induction names generalizing place with
  | nil => rw [along_nil, List.append_nil]
  | cons s rest ih =>
    obtain ⟨hplace, hrest⟩ := List.forall_mem_append.1 h
    rw [along_cons, child_path hplace (hrest s List.mem_cons_self), ih (by simpa using h),
      List.append_assoc, List.singleton_append]

/-- The scope inside of the directory that some names lead to, after each directory on the way has
been entered. -/
def IgnoreScope.along (tree : FileTree) : IgnoreScope → FilePath → List OsString → IgnoreScope
  | scope, dir, [] => scope.enter tree dir
  | scope, dir, s :: rest => along tree (scope.enter tree dir) (dir.child s) rest

@[simp]
theorem IgnoreScope.along_nil (tree : FileTree) (scope : IgnoreScope) (dir : FilePath) :
    scope.along tree dir [] = scope.enter tree dir := rfl

@[simp]
theorem IgnoreScope.along_cons (tree : FileTree) (scope : IgnoreScope) (dir : FilePath)
    (s : OsString) (names : List OsString) :
    scope.along tree dir (s :: names) = (scope.enter tree dir).along tree (dir.child s) names := rfl

namespace FileTree

variable {tree : FileTree} {env : Environment} {place names : Location} {scope : IgnoreScope}
  {root dir p : FilePath} {below : List OsString} {f : FoundFile} {s : OsString}
  {entries : List (OsString × Entry)} {e : Entry}

/-! ## Entries of a directory -/

/-- Whether there is a directory at a place, and no link. -/
def holdsDirectory (tree : FileTree) (place : Location) : Bool :=
  (tree.at? place).any Entry.isDirectory

theorem holdsDirectory_iff :
    tree.holdsDirectory place ↔ ∃ entries, tree.at? place = some (.directory entries) := by
  rw [holdsDirectory, Option.any_eq_true]
  constructor
  · rintro ⟨e, hat, he⟩
    cases e with
    | directory entries => exact ⟨entries, hat⟩
    | file | link => cases he
  · rintro ⟨entries, hat⟩
    exact ⟨_, hat, rfl⟩

theorem mem_filesIn_iff :
    f ∈ tree.filesIn scope dir below entries ↔
      ∃ entry ∈ entries, isSkippedName entry.1 = false ∧
        f ∈ tree.filesAt scope (dir.child entry.1) (below ++ [entry.1]) entry.2 := by
  induction entries with
  | nil => simp [filesIn]
  | cons first rest ih =>
    obtain ⟨s, e⟩ := first
    rw [filesIn, List.mem_append, ih, List.exists_mem_cons_iff]
    refine or_congr ?_ Iff.rfl
    cases hs : isSkippedName s <;> simp

theorem lookup_of_mem (hnodup : (entries.map Prod.fst).Nodup) (h : (s, e) ∈ entries) :
    entries.lookup s = some e := by
  induction entries with
  | nil => cases h
  | cons first rest ih =>
    obtain ⟨other, e'⟩ := first
    rw [List.map_cons, List.nodup_cons] at hnodup
    rw [Entry.lookup_cons_eq]
    rcases List.mem_cons.1 h with heq | h
    · cases heq
      exact if_pos rfl
    · have hne : s ≠ other := fun he => hnodup.1 (List.mem_map.2 ⟨(s, e), h, he⟩)
      rw [if_neg hne, ih hnodup.2 h]

theorem IsProper.entries_of_at? (htree : tree.IsProper)
    (hat : tree.at? place = some (.directory entries)) :
    (entries.map Prod.fst).Nodup ∧
      ∀ entry ∈ entries, IsEntryName entry.1 ∧ entry.2.IsProper := by
  cases htree.at? hat with
  | directory hnodup hnames hproper =>
    exact ⟨hnodup, fun entry h => ⟨(hnames entry h).toIsEntryName, hproper entry h⟩⟩

/-! ## The way down from a directory -/

/-- Whether a file stands at a place, or a link by which a path leads to one. -/
def showsFile (tree : FileTree) (place : Location) (p : FilePath) : Bool :=
  match tree.at? place with
  | some (.file _) => true
  | some (.link _) => tree.isFile p
  | _ => false

/-- Some names lead from a directory to a file that a walk lists. On the way there are directories
and no links, no name is skipped, and no entry is ignored by the scope inside of its directory. -/
structure IsListed (tree : FileTree) (scope : IgnoreScope) (dir : FilePath)
    (place names : Location) : Prop where
  ne_nil : names ≠ []
  not_skipped : ∀ s ∈ names, isSkippedName s = false
  holdsDirectory : ∀ above, above <+: names → above ≠ names → tree.holdsDirectory (place ++ above)
  showsFile : tree.showsFile (place ++ names) (dir.along names)
  not_ignored : ∀ above s, above ++ [s] <+: names →
    (scope.along tree dir above).ignores (dir.along (above ++ [s])) (above ++ [s] ≠ names) = false

theorem exists_at?_of_showsFile (h : tree.showsFile place p) :
    ∃ e, tree.at? place = some e := by
  cases hat : tree.at? place with
  | none => simp [showsFile, hat] at h
  | some e => exact ⟨e, rfl⟩

theorem isEntryName_of_showsFile (h : tree.showsFile place p) (htree : tree.IsProper) :
    ∀ s ∈ place, IsEntryName s := by
  obtain ⟨e, hat⟩ := exists_at?_of_showsFile h
  exact fun s hs => (htree.isFileName_of_at? hat s hs).toIsEntryName

/-- Some names lead from an entry to a file that a walk lists. Without names, the entry is it. -/
def IsListedAt (tree : FileTree) (scope : IgnoreScope) (p : FilePath) (place names : Location) :
    Prop :=
  scope.ignores p (names ≠ []) = false ∧
    (names = [] ∧ tree.showsFile place p ∨ tree.IsListed scope p place names)

theorem IsListed.holdsDirectory_start (h : tree.IsListed scope dir place names) :
    tree.holdsDirectory place := by
  have hstart := h.holdsDirectory [] List.nil_prefix h.ne_nil.symm
  rwa [List.append_nil] at hstart

theorem IsListed.isEntryName (h : tree.IsListed scope dir place names) (htree : tree.IsProper) :
    ∀ s ∈ names, IsEntryName s := fun s hs =>
  isEntryName_of_showsFile h.showsFile htree s (List.mem_append_right place hs)

theorem IsListed.isListedAt (h : tree.IsListed scope dir place (s :: names)) :
    tree.IsListedAt (scope.enter tree dir) (dir.child s) (place ++ [s]) names := by
  constructor
  · simpa using h.not_ignored [] s (by simp)
  rcases eq_or_ne names [] with rfl | hne
  · exact .inl ⟨rfl, h.showsFile⟩
  refine .inr ⟨hne, fun t ht => h.not_skipped t (List.mem_cons_of_mem s ht), ?_, ?_, ?_⟩
  · intro above habove hproper
    rw [List.append_assoc]
    exact h.holdsDirectory (s :: above) (by simpa using habove) (by simpa using hproper)
  · rw [List.append_assoc]
    exact h.showsFile
  · intro above t habove
    simpa using h.not_ignored (s :: above) t (by simpa using habove)

/-- **The first name of a way down** leads to an entry from which the other names lead on. -/
theorem isListed_cons_iff :
    tree.IsListed scope dir place (s :: names) ↔ isSkippedName s = false ∧
      tree.holdsDirectory place ∧
      tree.IsListedAt (scope.enter tree dir) (dir.child s) (place ++ [s]) names := by
  refine ⟨fun h => ⟨h.not_skipped s List.mem_cons_self, h.holdsDirectory_start, h.isListedAt⟩, ?_⟩
  rintro ⟨hskipped, hdirectory, hignored, hfinds⟩
  have hrest : names ≠ [] →
      tree.IsListed (scope.enter tree dir) (dir.child s) (place ++ [s]) names :=
    fun hne => hfinds.resolve_left fun h => hne h.1
  refine ⟨by simp, ?_, fun above habove hproper => ?_, ?_, fun above t habove => ?_⟩
  · refine List.forall_mem_cons.2 ⟨hskipped, fun t ht => ?_⟩
    exact (hrest (List.ne_nil_of_mem ht)).not_skipped t ht
  · rcases List.prefix_cons_iff.1 habove with rfl | ⟨above, rfl, hbelow⟩
    · rwa [List.append_nil]
    · have hproper' : above ≠ names := fun he => hproper (congrArg _ he)
      have hne : names ≠ [] := by
        rintro rfl
        exact hproper' (List.prefix_nil.1 hbelow)
      have hdown := (hrest hne).holdsDirectory above hbelow hproper'
      rwa [List.append_assoc] at hdown
  · rcases hfinds with ⟨rfl, hfile⟩ | hlisted
    · exact hfile
    · have hfile := hlisted.showsFile
      rwa [List.append_assoc] at hfile
  · cases above with
    | nil =>
      obtain ⟨rfl, -⟩ : t = s ∧ [] <+: names := by simpa using habove
      simpa using hignored
    | cons first above =>
      obtain ⟨rfl, hbelow⟩ := List.cons_prefix_cons.1 habove
      have hne : names ≠ [] := by
        rintro rfl
        simp at hbelow
      simpa using (hrest hne).not_ignored above t hbelow

theorem IsListedAt.exists_at? (h : tree.IsListedAt scope p place names) :
    ∃ e, tree.at? place = some e := by
  obtain ⟨-, ⟨-, hfile⟩ | hlisted⟩ := h
  · exact exists_at?_of_showsFile hfile
  · obtain ⟨entries, hat⟩ := holdsDirectory_iff.1 hlisted.holdsDirectory_start
    exact ⟨_, hat⟩

/-- No names lead on from what is no directory. -/
theorem isListedAt_iff_of_leaf (h : tree.holdsDirectory place = false) :
    tree.IsListedAt scope p place names ↔
      names = [] ∧ scope.ignores p false = false ∧ tree.showsFile place p := by
  have hlisted : ¬ tree.IsListed scope p place names := fun hlisted => by
    have hstart := hlisted.holdsDirectory_start
    simp [h] at hstart
  rw [IsListedAt, or_iff_left hlisted, and_left_comm]
  refine and_congr_right fun hnil => ?_
  simp [hnil]

/-- A directory is no file itself. -/
theorem isListedAt_iff_of_directory (h : tree.holdsDirectory place) :
    tree.IsListedAt scope p place names ↔
      scope.ignores p true = false ∧ tree.IsListed scope p place names := by
  obtain ⟨entries, hat⟩ := holdsDirectory_iff.1 h
  have hfile : ¬ tree.showsFile place p := by simp [FileTree.showsFile, hat]
  rw [IsListedAt, or_iff_right fun h => hfile h.2]
  refine and_congr_left fun hlisted => ?_
  simp [hlisted.ne_nil]

/-- What a walk finds in a directory, if this is known of its entries. -/
theorem mem_filesIn_iff_of_entries (htree : tree.IsProper)
    (hat : tree.at? place = some (.directory entries))
    (h : ∀ s e, (s, e) ∈ entries → tree.at? (place ++ [s]) = some e → ∀ below f,
      f ∈ tree.filesAt (scope.enter tree dir) (dir.child s) below e ↔
        ∃ names, f = ⟨(dir.child s).along names, below ++ names⟩ ∧
          tree.IsListedAt (scope.enter tree dir) (dir.child s) (place ++ [s]) names) :
    f ∈ tree.filesIn (scope.enter tree dir) dir below entries ↔
      ∃ names, f = ⟨dir.along names, below ++ names⟩ ∧ tree.IsListed scope dir place names := by
  rw [mem_filesIn_iff]
  constructor
  · rintro ⟨⟨s, e⟩, hentry, hskipped, hf⟩
    have hat' : tree.at? (place ++ [s]) = some e := by
      rw [← lookup_eq_at? hat, lookup_of_mem (htree.entries_of_at? hat).1 hentry]
    obtain ⟨names, rfl, hlisted⟩ := (h s e hentry hat' _ _).1 hf
    refine ⟨s :: names, by simp, ?_⟩
    exact isListed_cons_iff.2 ⟨hskipped, holdsDirectory_iff.2 ⟨entries, hat⟩, hlisted⟩
  · rintro ⟨names, rfl, hlisted⟩
    obtain ⟨s, rest, rfl⟩ := List.exists_cons_of_ne_nil hlisted.ne_nil
    obtain ⟨hskipped, -, hlisted⟩ := isListed_cons_iff.1 hlisted
    obtain ⟨e, hat'⟩ := hlisted.exists_at?
    have hentry : (s, e) ∈ entries := Entry.mem_of_lookup (by rwa [lookup_eq_at? hat])
    exact ⟨(s, e), hentry, hskipped, (h s e hentry hat' _ _).2 ⟨rest, by simp, hlisted⟩⟩

/-- **What a walk finds at an entry.** -/
theorem mem_filesAt_iff (htree : tree.IsProper) (hat : tree.at? place = some e) :
    f ∈ tree.filesAt scope p below e ↔
      ∃ names, f = ⟨p.along names, below ++ names⟩ ∧ tree.IsListedAt scope p place names := by
  induction htree.at? hat generalizing scope p place below f with
  | file content =>
    have hleaf : tree.holdsDirectory place = false := by
      rw [FileTree.holdsDirectory, hat]
      rfl
    simp only [isListedAt_iff_of_leaf hleaf, filesAt, showsFile, hat]
    cases scope.ignores p false <;> simp
  | link target =>
    have hleaf : tree.holdsDirectory place = false := by
      rw [FileTree.holdsDirectory, hat]
      rfl
    simp only [isListedAt_iff_of_leaf hleaf, filesAt, showsFile, hat]
    cases scope.ignores p false <;> cases tree.isFile p <;> simp
  | directory _ _ _ ih =>
    rw [filesAt]
    simp only [isListedAt_iff_of_directory (holdsDirectory_iff.2 ⟨_, hat⟩)]
    cases scope.ignores p true with
    | true => simp
    | false =>
      rw [if_neg Bool.false_ne_true, mem_filesIn_iff_of_entries htree hat]
      · simp
      · intro s e hentry hat' below f
        exact ih (s, e) hentry hat'

/-- **What a walk finds in a directory.** -/
theorem mem_filesIn_iff_isListed (htree : tree.IsProper)
    (hat : tree.at? place = some (.directory entries)) :
    f ∈ tree.filesIn (scope.enter tree dir) dir below entries ↔
      ∃ names, f = ⟨dir.along names, below ++ names⟩ ∧ tree.IsListed scope dir place names :=
  mem_filesIn_iff_of_entries htree hat fun _ _ _ hat' _ _ => mem_filesAt_iff htree hat'

/-- **The files of a walk** are those that names lead to, each with its names. -/
theorem mem_walk_iff_isListed (htree : tree.IsProper) (hlocate : tree.locate root = .ok place)
    (hplace : tree.holdsDirectory place) :
    f ∈ tree.walk env root ↔ ∃ names, f = ⟨root.along names, names⟩ ∧
      tree.IsListed (IgnoreScope.atStart tree env place) root place names := by
  obtain ⟨entries, hat⟩ := holdsDirectory_iff.1 hplace
  rw [walk, hlocate]
  simp only [hat]
  exact mem_filesIn_iff_isListed htree hat

end FileTree

end RemoteImports
