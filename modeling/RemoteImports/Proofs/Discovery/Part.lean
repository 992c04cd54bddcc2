import Mathlib.Data.List.Nodup
import RemoteImports.Proofs.Discovery
import RemoteImports.Proofs.Discovery.Selection
import RemoteImports.Proofs.Discovery.Walk

/-!
# Discovery in a part of a directory

A walk from a directory that another walk enters finds the files that this one finds below it
(`mem_walk_part_iff`). Whether it selects the same of them is up to the patterns: the discovered
files of the part are those of the whole that lie below it exactly if every file below it is
selected alike from both starts (`filter_discover_part_iff`).
-/

namespace RemoteImports.FileTree

open FilePath

variable {tree : FileTree} {env : Environment} {place down names : Location} {f : FoundFile}
  {selection : FileSelection} {keep : FilePath → Bool} {file : FilePath}

/-- A directory that a walk enters, by the names that lead down to it from the start. -/
structure IsEntered (tree : FileTree) (env : Environment) (place down : Location) : Prop where
  reached : tree.Reached (place ++ down)
  holdsDirectory : tree.holdsDirectory (place ++ down)
  enters : tree.Enters env place down

/-- The places above a reached directory are reached directories. -/
theorem Reached.of_append (h : tree.Reached (place ++ names))
    (hdirectory : tree.holdsDirectory (place ++ names)) :
    tree.Reached place ∧ tree.holdsDirectory place := by
  induction names using List.reverseRecOn with
  | nil =>
    rw [List.append_nil] at h hdirectory
    exact ⟨h, hdirectory⟩
  | append_singleton names s ih =>
    rw [← List.append_assoc] at h
    generalize hplace : place ++ names ++ [s] = q at h
    cases h with
    | top => simp at hplace
    | entry h hat =>
      obtain ⟨rfl, -⟩ := List.append_inj' hplace rfl
      exact ih h (holdsDirectory_iff.2 ⟨_, hat⟩)

namespace IsEntered

theorem isEntryName (h : tree.IsEntered env place down) (htree : tree.IsProper) :
    ∀ s ∈ place ++ down, IsEntryName s := fun s hs =>
  (h.reached.isFileName htree s hs).toIsEntryName

/-- **A walk from a directory** finds what a walk that enters it finds there. -/
theorem mem_walk_part_iff (h : tree.IsEntered env place down) (htree : tree.IsProper) :
    ⟨file, names⟩ ∈ tree.walk env (Location.path (place ++ down)) ↔
      ⟨file, down ++ names⟩ ∈ tree.walk env place.path := by
  obtain ⟨hreached, hplace⟩ := h.reached.of_append h.holdsDirectory
  obtain ⟨entries, hat⟩ := holdsDirectory_iff.1 h.holdsDirectory
  obtain ⟨entries', hat'⟩ := holdsDirectory_iff.1 hplace
  have hmeets := @meets_below_iff tree env place names down h.enters h.holdsDirectory
  rw [mem_walk_iff htree h.reached hat, mem_walk_iff htree hreached hat']
  simp only [FoundFile.mk.injEq, and_assoc]
  constructor
  · rintro ⟨names, rfl, rfl, h⟩
    exact ⟨down ++ names, by rw [List.append_assoc], rfl, hmeets.2 h⟩
  · rintro ⟨_, rfl, rfl, h⟩
    exact ⟨names, by rw [List.append_assoc], rfl, hmeets.1 h⟩

/-- A file that a walk finds lies in a directory if the names that lead to it go through there. -/
theorem isSome_below?_iff (h : tree.IsEntered env place down) (htree : tree.IsProper)
    (hf : f ∈ tree.walk env place.path) :
    ((Location.path (place ++ down)).below? f.path).isSome ↔ down <+: f.below := by
  obtain ⟨hreached, hplace⟩ := h.reached.of_append h.holdsDirectory
  obtain ⟨entries, hat⟩ := holdsDirectory_iff.1 hplace
  obtain ⟨names, rfl, hmeets⟩ := (mem_walk_iff htree hreached hat).1 hf
  rw [below?, List.isSome_isPrefixOf?_eq_isPrefixOf, List.isPrefixOf_iff_prefix,
    Location.components_path (h.isEntryName htree),
    Location.components_path (hmeets.isEntryName htree), List.cons_prefix_cons,
    List.prefix_map_iff_of_injective fun _ _ => Component.name.inj, List.prefix_append_right_inj]
  exact and_iff_right rfl

/-! ## Selected files -/

theorem mem_discover_part_iff (h : tree.IsEntered env place down) (htree : tree.IsProper) :
    file ∈ tree.discover env (Location.path (place ++ down)) selection ↔
      ∃ names, ⟨file, down ++ names⟩ ∈ tree.walk env place.path ∧
        selection.selects (OsString.join names) file := by
  rw [mem_discover_iff]
  constructor
  · rintro ⟨found, hfound, hselects, rfl⟩
    exact ⟨found.below, (h.mem_walk_part_iff htree).1 hfound, hselects⟩
  · rintro ⟨names, hfound, hselects⟩
    exact ⟨_, (h.mem_walk_part_iff htree).2 hfound, hselects, rfl⟩

theorem mem_discover_whole_iff (h : tree.IsEntered env place down) (htree : tree.IsProper) :
    file ∈ tree.discover env place.path selection ∧
        ((Location.path (place ++ down)).below? file).isSome ↔
      ∃ names, ⟨file, down ++ names⟩ ∈ tree.walk env place.path ∧
        selection.selects (OsString.join (down ++ names)) file := by
  rw [mem_discover_iff]
  constructor
  · rintro ⟨⟨found, hfound, hselects, rfl⟩, hbelow⟩
    obtain ⟨names, hnames⟩ := (h.isSome_below?_iff htree hfound).1 hbelow
    refine ⟨names, ?_, ?_⟩
    · rwa [hnames]
    · rwa [hnames]
  · rintro ⟨names, hfound, hselects⟩
    exact ⟨⟨_, hfound, hselects, rfl⟩,
      (h.isSome_below?_iff htree hfound).2 (List.prefix_append down names)⟩

/-- Different names lead to different files. -/
theorem below_inj {names names' : Location} (htree : tree.IsProper)
    (hfound : ⟨file, names⟩ ∈ tree.walk env place.path)
    (hfound' : ⟨file, names'⟩ ∈ tree.walk env place.path) : names = names' := by
  have heq := List.inj_on_of_nodup_map (spread_walk htree env place.path).nodup hfound hfound' rfl
  exact congrArg FoundFile.below heq

/-- **The files of a part are those of the whole that lie there** exactly if each of them is
selected alike from both starts. -/
theorem filter_discover_part_iff (h : tree.IsEntered env place down) (htree : tree.IsProper)
    (selection : FileSelection) (keep : FilePath → Bool) :
    (tree.discover env (Location.path (place ++ down)) selection).filter keep =
        ((tree.discover env place.path selection).filter keep).filter
          (fun file => ((Location.path (place ++ down)).below? file).isSome) ↔
      ∀ file names, ⟨file, down ++ names⟩ ∈ tree.walk env place.path → keep file →
        selection.selects (OsString.join names) file =
          selection.selects (OsString.join (down ++ names)) file := by
  constructor
  · intro heq file names hfound hkeep
    have hmem : file ∈ tree.discover env (Location.path (place ++ down)) selection ↔
        file ∈ tree.discover env place.path selection ∧
          ((Location.path (place ++ down)).below? file).isSome := by
      have hmem := congrArg (file ∈ ·) heq
      simpa [hkeep] using hmem
    rw [h.mem_discover_part_iff htree, h.mem_discover_whole_iff htree] at hmem
    have hnames {names' : Location} (hfound' : ⟨file, down ++ names'⟩ ∈ tree.walk env place.path) :
        names' = names :=
      List.append_cancel_left (below_inj htree hfound' hfound)
    rw [Bool.eq_iff_iff]
    constructor
    · intro hselects
      obtain ⟨names', hfound', hselects'⟩ := hmem.1 ⟨names, hfound, hselects⟩
      rwa [hnames hfound'] at hselects'
    · intro hselects
      obtain ⟨names', hfound', hselects'⟩ := hmem.2 ⟨names, hfound, hselects⟩
      rwa [hnames hfound'] at hselects'
  · intro hselects
    have hordered := pairwise_before_discover htree env
    refine eq_of_pairwise_before ((hordered _ selection).filter keep)
      (((hordered _ selection).filter keep).filter _) fun file => ?_
    rw [List.mem_filter, List.mem_filter, List.mem_filter, and_right_comm,
      h.mem_discover_part_iff htree, h.mem_discover_whole_iff htree]
    refine and_congr_left fun hkeep => exists_congr fun names => and_congr_right fun hfound => ?_
    rw [hselects file names hfound hkeep]

/-- Patterns without an anchor select a file alike from both starts. -/
theorem selects_part_eq (h : tree.IsEntered env place down) (htree : tree.IsProper)
    (hselection : selection.IsUnanchored)
    (hfound : ⟨file, down ++ names⟩ ∈ tree.walk env place.path) :
    selection.selects (OsString.join names) file =
      selection.selects (OsString.join (down ++ names)) file := by
  obtain ⟨entries, hat⟩ := holdsDirectory_iff.1 h.holdsDirectory
  rw [← h.mem_walk_part_iff htree, mem_walk_iff htree h.reached hat] at hfound
  obtain ⟨_, heq, hmeets⟩ := hfound
  obtain ⟨rfl, rfl⟩ := FoundFile.mk.inj heq
  have hnames := hmeets.isEntryName htree
  rw [List.append_assoc] at hnames
  rw [FileSelection.selects_congr hselection hmeets.ne_nil fun s hs =>
    hnames s (List.mem_append_right _ hs), List.append_assoc]

end IsEntered

end RemoteImports.FileTree
