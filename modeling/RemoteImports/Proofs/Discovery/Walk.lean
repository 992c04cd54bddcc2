import RemoteImports.Proofs.Discovery.Listed
import RemoteImports.Proofs.Ignore.Scope

/-!
# Which files a walk meets

A walk goes from a directory into those of its directories that are neither skipped nor ignored, and
lists the files among the entries that are neither (`FileTree.Meets`, `mem_walk_iff`). If the walk
starts from the path of a place, whether it does so depends on the place alone, not on the start
(`isListed_path_iff`). So a walk from a directory that another walk enters meets the same files
below it (`meets_below_iff`).
-/

namespace RemoteImports

open FilePath

namespace FileTree

variable {tree : FileTree} {env : Environment} {start place names : Location}
  {scope : IgnoreScope} {f : FoundFile} {s : OsString} {entries : List (OsString × Entry)}

/-! ## Entries one by one -/

/-- Whether the ignore files hide an entry of a directory. -/
def isIgnored (tree : FileTree) (env : Environment) (place : Location) (s : OsString)
    (isDirectory : Bool) : Bool :=
  ((IgnoreScope.atStart tree env place).enter tree place.path).ignores
    (Location.path (place ++ [s])) isDirectory

/-- Whether there is a file at a place, or a link to one. -/
def holdsFile (tree : FileTree) (place : Location) : Bool :=
  match tree.at? place with
  | some (.file _) => true
  | some (.link _) => tree.isFile place.path
  | _ => false

theorem holdsFile_eq (tree : FileTree) (place : Location) :
    tree.holdsFile place = tree.showsFile place place.path := rfl

/-- A walk goes from a directory into an entry. -/
structure EntersEntry (tree : FileTree) (env : Environment) (place : Location) (s : OsString) :
    Prop where
  not_skipped : isSkippedName s = false
  holdsDirectory : tree.holdsDirectory (place ++ [s])
  not_ignored : tree.isIgnored env place s true = false

/-- A walk lists an entry of a directory. -/
structure ListsEntry (tree : FileTree) (env : Environment) (place : Location) (s : OsString) :
    Prop where
  not_skipped : isSkippedName s = false
  holdsFile : tree.holdsFile (place ++ [s])
  not_ignored : tree.isIgnored env place s false = false

/-- A walk goes from a directory into the entries that some names lead to. -/
def Enters (tree : FileTree) (env : Environment) : Location → List OsString → Prop
  | _, [] => True
  | place, s :: rest => tree.EntersEntry env place s ∧ Enters tree env (place ++ [s]) rest

/-- A walk meets the file that some names lead to. -/
def Meets (tree : FileTree) (env : Environment) (place names : Location) : Prop :=
  ∃ above s, names = above ++ [s] ∧ tree.Enters env place above ∧
    tree.ListsEntry env (place ++ above) s

theorem enters_append_iff {more : Location} :
    tree.Enters env place (names ++ more) ↔
      tree.Enters env place names ∧ tree.Enters env (place ++ names) more := by
  induction names generalizing place with
  | nil => simp [Enters]
  | cons s rest ih => simp [Enters, ih, and_assoc]

/-- **Below a directory that a walk enters**, it meets what a walk from there meets. -/
theorem meets_append_iff {more : Location} (hne : more ≠ []) :
    tree.Meets env place (names ++ more) ↔
      tree.Enters env place names ∧ tree.Meets env (place ++ names) more := by
  constructor
  · rintro ⟨above, s, hmore, henters, hlists⟩
    obtain ⟨rest, last, rfl⟩ := (List.eq_nil_or_concat' more).resolve_left hne
    rw [← List.append_assoc] at hmore
    obtain ⟨rfl, hlast⟩ := List.append_inj' hmore.symm rfl
    obtain ⟨hnames, hrest⟩ := enters_append_iff.1 henters
    rw [← List.append_assoc] at hlists
    exact ⟨hnames, rest, last, rfl, hrest, List.singleton_inj.1 hlast ▸ hlists⟩
  · rintro ⟨hnames, above, s, rfl, henters, hlists⟩
    refine ⟨names ++ above, s, (List.append_assoc ..).symm, ?_, ?_⟩
    · exact enters_append_iff.2 ⟨hnames, henters⟩
    · rwa [List.append_assoc] at hlists

theorem not_meets_of_holdsDirectory (h : tree.holdsDirectory (place ++ names)) :
    ¬ tree.Meets env place names := by
  rintro ⟨above, s, rfl, -, hlists⟩
  obtain ⟨entries, hat⟩ := holdsDirectory_iff.1 h
  have hfile := hlists.holdsFile
  rw [holdsFile, List.append_assoc, hat] at hfile
  cases hfile

/-- Below a directory that a walk enters, it meets nothing but what a walk from there meets. -/
theorem meets_below_iff {down : Location} (henters : tree.Enters env place down)
    (hdirectory : tree.holdsDirectory (place ++ down)) :
    tree.Meets env place (down ++ names) ↔ tree.Meets env (place ++ down) names := by
  rcases eq_or_ne names [] with rfl | hne
  · refine iff_of_false ?_ fun h => ?_
    · rw [List.append_nil]
      exact not_meets_of_holdsDirectory hdirectory
    · exact not_meets_of_holdsDirectory (by rwa [List.append_nil]) h
  · rw [meets_append_iff hne]
    exact and_iff_right henters

theorem Meets.isEntryName (h : tree.Meets env place names) (htree : tree.IsProper) :
    ∀ s ∈ place ++ names, IsEntryName s := by
  obtain ⟨above, s, rfl, -, hlists⟩ := h
  rw [← List.append_assoc]
  exact isEntryName_of_showsFile hlists.holdsFile htree

theorem Meets.ne_nil (h : tree.Meets env place names) : names ≠ [] := by
  obtain ⟨above, s, rfl, -⟩ := h
  simp

/-! ## Files that are met -/

theorem meets_cons_iff :
    tree.Meets env place (s :: names) ↔
      names = [] ∧ tree.ListsEntry env place s ∨
        tree.EntersEntry env place s ∧ tree.Meets env (place ++ [s]) names := by
  rcases eq_or_ne names [] with rfl | hne
  · constructor
    · rintro ⟨above, t, hs, -, hlists⟩
      obtain ⟨rfl, ht⟩ := List.append_inj' (show [] ++ [s] = above ++ [t] from hs) rfl
      rw [List.append_nil] at hlists
      exact .inl ⟨rfl, List.singleton_inj.1 ht ▸ hlists⟩
    · rintro (⟨-, hlists⟩ | ⟨-, hmeets⟩)
      · exact ⟨[], s, rfl, trivial, by rwa [List.append_nil]⟩
      · exact absurd rfl hmeets.ne_nil
  · rw [← List.singleton_append, meets_append_iff hne]
    simp [Enters, hne]

theorem entersEntry_iff :
    tree.EntersEntry env place s ↔ isSkippedName s = false ∧ tree.holdsDirectory (place ++ [s]) ∧
      tree.isIgnored env place s true = false :=
  ⟨fun h => ⟨h.not_skipped, h.holdsDirectory, h.not_ignored⟩, fun h => ⟨h.1, h.2.1, h.2.2⟩⟩

theorem listsEntry_iff :
    tree.ListsEntry env place s ↔ isSkippedName s = false ∧ tree.holdsFile (place ++ [s]) ∧
      tree.isIgnored env place s false = false :=
  ⟨fun h => ⟨h.not_skipped, h.holdsFile, h.not_ignored⟩, fun h => ⟨h.1, h.2.1, h.2.2⟩⟩

/-- **What a walk lists below the path of a place** is what it meets there, wherever it started. -/
theorem isListed_path_iff (htree : tree.IsProper)
    (hscope : (scope.enter tree place.path).IsInside tree env start place)
    (hstart : start <+: place) (hplace : ∀ s ∈ place, IsEntryName s) :
    tree.IsListed scope place.path place names ↔
      tree.holdsDirectory place ∧ tree.Meets env place names := by
  induction names generalizing place scope with
  | nil => exact iff_of_false (fun h => h.ne_nil rfl) fun h => h.2.ne_nil rfl
  | cons s rest ih =>
    rw [isListed_cons_iff, meets_cons_iff, and_left_comm]
    refine and_congr_right fun _ => ?_
    cases hentry : tree.at? (place ++ [s]) with
    | none =>
      refine iff_of_false (fun h => ?_) ?_
      · obtain ⟨e, he⟩ := h.2.exists_at?
        rw [hentry] at he
        cases he
      rintro (⟨-, hlists⟩ | ⟨henters, -⟩)
      · simpa [holdsFile, hentry] using hlists.holdsFile
      · simpa [holdsDirectory, hentry] using henters.holdsDirectory
    | some e =>
      have hplace' : ∀ t ∈ place ++ [s], IsEntryName t := fun t ht =>
        (htree.isFileName_of_at? hentry t ht).toIsEntryName
      have hs : IsEntryName s := hplace' s (by simp)
      have hignored : ∀ isDirectory, (scope.enter tree place.path).ignores
          (Location.path (place ++ [s])) isDirectory = tree.isIgnored env place s isDirectory :=
        hscope.ignores_eq hstart (IgnoreScope.isInside_atStart tree env place) List.prefix_rfl
          hplace'
      have hrest := @ih (place ++ [s]) (scope.enter tree place.path) (hscope.enter s)
        (hstart.trans (List.prefix_append place [s])) hplace'
      rw [Location.child_path hplace hs, IsListedAt, hignored, hrest, listsEntry_iff,
        entersEntry_iff]
      rcases eq_or_ne rest [] with rfl | hne
      · have hmeets : ¬ tree.Meets env (place ++ [s]) [] := fun h => h.ne_nil rfl
        simp [hmeets, holdsFile_eq, and_comm]
      · simp [hne, and_comm, and_assoc, and_left_comm]

/-- **The files of a walk** are those that it meets, each with the names that lead to it. -/
theorem mem_walk_iff (htree : tree.IsProper) (hplace : tree.Reached place)
    (hat : tree.at? place = some (.directory entries)) :
    f ∈ tree.walk env place.path ↔
      ∃ names, f = ⟨Location.path (place ++ names), names⟩ ∧ tree.Meets env place names := by
  have hnames : ∀ s ∈ place, IsEntryName s := fun s hs =>
    (hplace.isFileName htree s hs).toIsEntryName
  have hlocate : tree.locate place.path = .ok place := by
    rw [locate, hplace.reach_path htree]
  have hdirectory : tree.holdsDirectory place := holdsDirectory_iff.2 ⟨entries, hat⟩
  have hscope := IgnoreScope.isInside_atStart tree env place
  rw [mem_walk_iff_isListed htree hlocate hdirectory]
  refine exists_congr fun names => ?_
  rw [isListed_path_iff htree hscope List.prefix_rfl hnames, and_iff_right hdirectory]
  refine and_congr_left fun hmeets => ?_
  rw [Location.along_path (hmeets.isEntryName htree)]

end FileTree

end RemoteImports
