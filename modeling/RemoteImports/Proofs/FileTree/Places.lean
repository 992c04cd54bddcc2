import RemoteImports.FileTree.ModuleFile
import RemoteImports.Proofs.FilePath.Join
import RemoteImports.Proofs.FileTree.Entries
import RemoteImports.Script.Dialect

/-!
# Paths around a place

What the operations on paths make of the path of a place: its parent is the place above
(`parent?_path`), an entry is the place with one more name (`child_path`), and steps that do not
leave a place lead to the names where they end (`normalize_join_path`).
-/

namespace RemoteImports

open FilePath FilePath.Component
open OsString (slash)

namespace Location

variable {place names more : Location} {p : FilePath} {s : OsString}

/-- A normal absolute path is the path of a place. -/
theorem exists_path_of_normalize (habs : p.isAbsolute) (hnormal : p.normalize = p) :
    ∃ place : Location, (∀ s ∈ place, IsEntryName s) ∧ place.path = p := by
  obtain ⟨place, hplace, hp⟩ := normalize_of_isAbsolute habs
  exact ⟨place, hplace, (path_eq_ofComponents place).trans (hp.symm.trans hnormal)⟩

/-! ## Entries -/

/-- Names joined to the path of a place. -/
theorem join_path (h : ∀ s ∈ place, IsEntryName s) (hne : more ≠ [])
    (hmore : ∀ s ∈ more, IsEntryName s) :
    place.path.join ⟨OsString.join more⟩ = Location.path (place ++ more) := by
  rw [path_eq_ofComponents, path_eq_ofComponents]
  exact join_relative h hne hmore

theorem child_path (h : ∀ s ∈ place, IsEntryName s) (hs : IsEntryName s) :
    place.path.child s = Location.path (place ++ [s]) :=
  (congrArg place.path.child (OsString.join_singleton s)).symm.trans
    (@join_path place [s] h (by simp) (by simpa using hs))

/-- A path ends in names after a slash. -/
theorem exists_bytes_path_append (place : Location) (hne : names ≠ []) :
    ∃ above, (Location.path (place ++ names)).bytes =
      above ++ slash :: (OsString.join names).bytes := by
  rcases eq_or_ne place [] with rfl | hplace
  · exact ⟨[], rfl⟩
  · refine ⟨place.path.bytes, ?_⟩
    rw [path, path, OsString.join_append hplace hne]
    simp [OsString.bytes_append]

/-- A path ends in the last name. -/
theorem exists_path_concat (place : Location) :
    ∃ before : OsString, ∀ s, Location.path (place ++ [s]) = ⟨before ++ s⟩ := by
  rcases eq_or_ne place [] with rfl | hne
  · exact ⟨⟨[slash]⟩, fun s => by rw [List.nil_append, path, OsString.join_singleton]⟩
  · refine ⟨⟨[slash]⟩ ++ (OsString.join place ++ ⟨[slash]⟩), fun s => ?_⟩
    rw [path, OsString.join_append hne (by simp), OsString.join_singleton]
    simp only [OsString.append_assoc]

theorem head?_bytes_join (hne : names ≠ []) (h : ∀ s ∈ names, IsEntryName s) :
    (OsString.join names).bytes.head? ≠ some slash := by
  simpa [isAbsolute] using not_isAbsolute_join_names hne h

theorem withExtension_path (place : Location) (s : OsString) (extension : String) :
    (Location.path (place ++ [s])).withExtension extension =
      Location.path (place ++ [s ++ "." ++ extension]) := by
  obtain ⟨before, hbefore⟩ := exists_path_concat place
  rw [withExtension, hbefore, hbefore]
  simp only [OsString.append_assoc]

/-! ## Parents -/

theorem not_isIdle_bytes (h : IsEntryName s) : ¬ isIdle s.bytes := by
  simpa [isIdle] using ⟨h.ne_empty, h.ne_dot⟩

/-- Nothing is cut off from the pieces of entry names. -/
theorem trimPieces_names (h : ∀ s ∈ place, IsEntryName s) :
    trimPieces ([] :: place.map OsString.bytes) = [] :: place.map OsString.bytes := by
  obtain ⟨kept, idle, hrest, hidle, htrim, -⟩ :=
    exists_trimPieces_cons [] (place.map OsString.bytes)
  have hnone : idle = [] := by
    refine List.eq_nil_iff_forall_not_mem.2 fun piece hpiece => ?_
    obtain ⟨s, hs, rfl⟩ := List.mem_map.1 (hrest ▸ List.mem_append_right kept hpiece)
    exact not_isIdle_bytes (h s hs) (hidle _ hpiece)
  rw [htrim, hrest, hnone, List.append_nil]

theorem pieces_path (hne : place ≠ []) (h : ∀ s ∈ place, IsEntryName s) :
    place.path.pieces = [] :: place.map OsString.bytes := by
  rw [path, pieces, OsString.bytes_append, List.singleton_append, Text.splitOn_cons_self,
    splitOn_join_names hne h]

theorem ofTrimmed_names (h : ∀ s ∈ place, IsEntryName s) :
    ofTrimmed ([] :: place.map OsString.bytes) = place.path := by
  rcases eq_or_ne place [] with rfl | hne
  · rfl
  · have htop : trimPieces ([] :: place.map OsString.bytes) ≠ [[]] := by
      rw [trimPieces_names h]
      simpa using hne
    rw [ofTrimmed_of_ne htop, trimPieces_names h, ← pieces_path hne h, intercalate_pieces]

/-- **The parent of an entry** is its directory. -/
theorem parent?_path (h : ∀ t ∈ place ++ [s], IsEntryName t) :
    (Location.path (place ++ [s])).parent? = some place.path := by
  have htrim : trimPieces (Location.path (place ++ [s])).pieces =
      [] :: (place ++ [s]).map OsString.bytes := by
    rw [pieces_path (by simp) h, trimPieces_names h]
  rw [parent?_of_trimPieces (by simp) htrim, List.map_append, List.map_singleton,
    ← List.cons_append, List.dropLast_concat, ofTrimmed_names fun t ht => h t (by simp [ht])]

/-! ## Steps inside of a place -/

/-- **A path that stays inside of a place** leads to the names where its steps end. -/
theorem normalize_join_path {inside : Location} (h : walkInside names p.components = some inside)
    (hplace : ∀ s ∈ place ++ names, IsEntryName s) :
    ((Location.path (place ++ names)).join p).normalize = Location.path (place ++ inside) := by
  have hempty : (Location.path (place ++ names)).bytes ≠ [] := List.cons_ne_nil _ _
  rw [FilePath.normalize, components_join hempty (not_isAbsolute_of_walkInside h),
    components_path hplace, normalComponents_walkInside place h, path_eq_ofComponents]

theorem normalize_join_path_of_nil {inside : Location}
    (h : walkInside [] p.components = some inside) (hplace : ∀ s ∈ place, IsEntryName s) :
    (place.path.join p).normalize = Location.path (place ++ inside) := by
  rw [← List.append_nil place] at hplace
  have hjoin := normalize_join_path h hplace
  rwa [List.append_nil] at hjoin

/-- The path that a file refers to by steps that stay inside of a place. -/
theorem resolveFrom_path {inside : Location} {specifier : String} (hne : names ≠ [])
    (hplace : ∀ s ∈ place ++ names, IsEntryName s)
    (h : walkInside names.dropLast (components ⟨specifier⟩) = some inside) :
    (Location.path (place ++ names)).resolveFrom specifier = Location.path (place ++ inside) := by
  obtain ⟨above, last, rfl⟩ := (List.eq_nil_or_concat' names).resolve_left hne
  rw [List.dropLast_concat] at h
  rw [← List.append_assoc] at hplace ⊢
  rw [resolveFrom, parent?_path hplace, Option.getD_some]
  exact normalize_join_path h fun s hs => hplace s (List.mem_append_left _ hs)

/-- The way from one place to another does not depend on what is above both. -/
theorem relativeTo_path_append (hnames : ∀ s ∈ place ++ names, IsEntryName s)
    (hmore : ∀ s ∈ place ++ more, IsEntryName s) :
    (Location.path (place ++ names)).relativeTo (Location.path (place ++ more)) =
      names.path.relativeTo more.path := by
  have hbelow : (Location.path (place ++ names)).below? (Location.path (place ++ more)) =
      names.path.below? more.path := by
    ext1 steps
    rw [below?_eq_some_iff, below?_eq_some_iff, components_path hnames, components_path hmore,
      components_path fun s hs => hnames s (List.mem_append_right _ hs),
      components_path fun s hs => hmore s (List.mem_append_right _ hs)]
    simp
  rw [relativeTo, relativeTo, hbelow]

end Location

/-- The dialect of a file is known by the last component of its path. -/
theorem Dialect.ofPath_congr {p q : FilePath}
    (h : p.components.getLast? = q.components.getLast?) : ofPath p = ofPath q := by
  rw [ofPath, ofPath, ofPath?, ofPath?, extension?, extension?, fileName?, fileName?, h]

end RemoteImports
