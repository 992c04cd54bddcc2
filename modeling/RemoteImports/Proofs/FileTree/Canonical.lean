import RemoteImports.FileTree.Access
import RemoteImports.Proofs.FilePath.Containment
import RemoteImports.Proofs.FileTree.Proper
import RemoteImports.Proofs.Outcome

/-!
# Canonical paths

A path that starts at the top leads through directories, entry by entry, and never stays at a link
(`Reached`): following steps keeps to such places (`Reached.followWith`), and following the names of
such a place leads there again (`Reached.followWith_names`). So the canonical path of an absolute
path is its own canonical path (`canonical_canonical`), and it is normal
(`normalize_of_canonical`).
-/

namespace RemoteImports

open FilePath FilePath.Component

/-! ## Paths of places -/

theorem Step.ofPiece?_bytes {s : OsString} (h : IsEntryName s) :
    Step.ofPiece? s.bytes = some (.name s) := by
  rw [ofPiece?, if_neg h.ne_empty, if_neg h.ne_dot, if_neg h.ne_dots]

namespace Location

variable {place : Location}

theorem isAbsolute_path (place : Location) : place.path.isAbsolute := by
  rw [Location.path, isAbsolute]
  rfl

theorem path_eq_ofComponents (place : Location) :
    place.path = ofComponents (root :: place.map Component.name) :=
  (ofComponents_root_names place).symm

theorem normalize_path (h : ∀ s ∈ place, IsEntryName s) : place.path.normalize = place.path := by
  have hcomponents := components_ofComponents_root (isInner_of_mem_names h)
  rw [FilePath.normalize, path_eq_ofComponents, hcomponents]
  exact congrArg ofComponents (normalComponents_names place)

theorem plainSteps_path (h : ∀ s ∈ place, IsEntryName s) :
    place.path.plainSteps = place.map Step.name := by
  rw [plainSteps, path, pieces, OsString.bytes_append, List.singleton_append,
    Text.splitOn_cons_self]
  rcases eq_or_ne place [] with rfl | hne
  · rfl
  · rw [splitOn_join_names hne h, List.filterMap_cons_none rfl, List.filterMap_map,
      ← List.filterMap_eq_map]
    exact List.filterMap_congr fun s hs => Step.ofPiece?_bytes (h s hs)

theorem endsInSlash_path (hne : place ≠ []) (h : ∀ s ∈ place, IsEntryName s) :
    place.path.endsInSlash = false := by
  have hlast := getLast?_ofComponents_root hne h
  rw [← path_eq_ofComponents] at hlast
  exact decide_eq_false hlast

theorem null_notMem_path (h : ∀ s ∈ place, IsFileName s) :
    0 ∉ place.path.bytes := by
  intro hnull
  rw [path, OsString.bytes_append, List.singleton_append, List.mem_cons] at hnull
  rcases hnull with hnull | hnull
  · exact absurd hnull (by decide)
  rcases Text.mem_intercalate hnull with hnull | ⟨piece, hpiece, hnull⟩
  · exact absurd hnull (by decide)
  · obtain ⟨s, hs, rfl⟩ := List.mem_map.1 hpiece
    exact (h s hs).null_notMem hnull

end Location

namespace FileTree

variable {tree : FileTree} {place goal : Location} {p c : FilePath}
  {jump : Location → FilePath → List Step → Except FileFault Reach}

/-! ## Reached places -/

/-- The places that a path from the top can lead to: the top itself, and the entries of directories
that are no links and whose names are not too long. -/
inductive Reached (tree : FileTree) : Location → Prop
  | top : Reached tree []
  | entry {place : Location} {entries : List (OsString × Entry)} {name : OsString} {e : Entry}
      (h : Reached tree place) (hat : tree.at? place = some (.directory entries))
      (hlookup : entries.lookup name = some e) (hlink : ∀ target, e ≠ .link target)
      (hsize : name.bytes.length ≤ nameLimit) : Reached tree (place ++ [name])

namespace Reached

theorem dropLast (h : tree.Reached place) : tree.Reached place.dropLast := by
  cases h with
  | top => exact .top
  | entry h => simpa using h

theorem isFileName (h : tree.Reached place) (htree : tree.IsProper) :
    ∀ s ∈ place, IsFileName s := by
  induction h with
  | top => simp
  | entry _ hat hlookup _ _ ih =>
    intro s hs
    rcases List.mem_append.1 hs with hs | hs
    · exact ih s hs
    · obtain rfl := List.mem_singleton.1 hs
      exact ((htree.at? hat).of_lookup hlookup).1

/-- Steps lead from a reached place to a reached place, if the jumps at links do. -/
theorem followWith {steps : List Step} (h : tree.Reached place)
    (hjump : ∀ place target rest, tree.Reached place →
      jump place target rest = .ok (.present goal) → tree.Reached goal)
    (hgoal : tree.followWith jump place steps = .ok (.present goal)) : tree.Reached goal := by
  induction steps generalizing place with
  | nil =>
    cases hgoal
    exact h
  | cons step rest ih =>
    rw [FileTree.followWith] at hgoal
    -- only a directory is left by a step
    split at hgoal
    case h_2 | h_3 => cases hgoal
    rename_i entries hat
    cases step with
    | here => exact ih h hgoal
    | up => exact ih h.dropLast hgoal
    | name text =>
      simp only at hgoal
      split at hgoal
      · cases hgoal
      rename_i hsize
      split at hgoal
      · split at hgoal <;> cases hgoal
      · exact hjump _ _ _ h hgoal
      · rename_i e hlink hlookup
        exact ih (h.entry hat hlookup (fun _ => hlink _) (Nat.le_of_not_lt hsize)) hgoal

/-- Followed links do not change that: each starts again from a reached place. -/
theorem follow {links : Nat} {steps : List Step} (h : tree.Reached place)
    (hgoal : tree.follow links place steps = .ok (.present goal)) : tree.Reached goal := by
  induction links generalizing place steps with
  | zero => exact h.followWith (fun _ _ _ _ hjump => by cases hjump) hgoal
  | succ links ih =>
    refine h.followWith (fun place target rest hplace hjump => ih ?_ hjump) hgoal
    split
    · exact .top
    · exact hplace

/-- The names of a reached place lead there from the top. -/
theorem followWith_names (h : tree.Reached place) (rest : List Step) :
    tree.followWith jump [] (place.map Step.name ++ rest) = tree.followWith jump place rest := by
  induction h generalizing rest with
  | top => rfl
  | @entry place entries name e _ hat hlookup hlink hsize ih =>
    rw [List.map_append, List.append_assoc, ih, List.map_singleton, List.singleton_append,
      FileTree.followWith, hat]
    cases e with
    | link target => exact absurd rfl (hlink target)
    | file | directory => simp only [if_neg (Nat.not_lt.2 hsize), hlookup]

/-- The names of a reached place lead there from the top, without a link on the way. -/
theorem follow_names (h : tree.Reached place) (links : Nat) (rest : List Step) :
    tree.follow links [] (place.map Step.name ++ rest) = tree.follow links place rest := by
  cases links with
  | zero => exact h.followWith_names rest
  | succ links => exact h.followWith_names rest

end Reached

theorem follow_here {entries : List (OsString × Entry)}
    (h : tree.at? place = some (.directory entries)) (links : Nat) :
    tree.follow links place [.here] = .ok (.present place) := by
  cases links <;> simp [follow, followWith, h]

/-! ## Canonical paths -/

theorem canonical_eq_ok_iff :
    tree.canonical p = .ok c ↔
      ∃ place, tree.reach p = .ok (.present place) ∧ place.path = c := by
  refine map_eq_ok_iff.trans (exists_congr fun place => and_congr_left fun _ => ?_)
  unfold locate
  split <;> simp_all

theorem isAbsolute_of_canonical (h : tree.canonical p = .ok c) : c.isAbsolute := by
  obtain ⟨place, -, rfl⟩ := canonical_eq_ok_iff.1 h
  exact place.isAbsolute_path

theorem reach_eq_follow {reach : Reach} (h : tree.reach p = .ok reach) :
    tree.follow linkLimit (tree.startOf p) p.steps = .ok reach := by
  unfold FileTree.reach at h
  split at h
  · cases h
  split at h
  · cases h
  · exact h

/-- An absolute path that leads anywhere leads to a reached place. -/
theorem exists_reached_of_canonical (habs : p.isAbsolute) (h : tree.canonical p = .ok c) :
    ∃ place, tree.Reached place ∧ place.path = c := by
  obtain ⟨place, hreach, rfl⟩ := canonical_eq_ok_iff.1 h
  have hfollow := reach_eq_follow hreach
  rw [startOf, if_pos habs] at hfollow
  exact ⟨place, Reached.top.follow hfollow, rfl⟩

/-- The path of a reached place leads to this place. -/
theorem Reached.reach_path (h : tree.Reached place) (htree : tree.IsProper) :
    tree.reach place.path = .ok (.present place) := by
  have hfile := h.isFileName htree
  have hnames : ∀ s ∈ place, IsEntryName s := fun s hs => (hfile s hs).toIsEntryName
  have hnull : place.path.bytes.contains 0 = false := by
    simpa using place.null_notMem_path hfile
  have hempty : place.path.bytes ≠ [] := List.cons_ne_nil _ _
  rw [FileTree.reach, hnull, if_neg Bool.false_ne_true, if_neg hempty, startOf,
    if_pos place.isAbsolute_path, steps, place.plainSteps_path hnames]
  rcases eq_or_ne place [] with rfl | hne
  · obtain ⟨entries, htop⟩ := htree.exists_entries
    have hat : tree.at? [] = some (.directory entries) := congrArg some htop
    exact follow_here hat linkLimit
  · rw [place.endsInSlash_path hne hnames, if_neg Bool.false_ne_true,
      ← List.append_nil (place.map Step.name), h.follow_names]
    rfl

/-- **Canonical paths are their own canonical paths.** -/
theorem canonical_canonical (htree : tree.IsProper) (habs : p.isAbsolute)
    (h : tree.canonical p = .ok c) : tree.canonical c = .ok c := by
  obtain ⟨place, hplace, rfl⟩ := exists_reached_of_canonical habs h
  exact canonical_eq_ok_iff.2 ⟨place, hplace.reach_path htree, rfl⟩

/-- **Canonical paths are normal.** -/
theorem normalize_of_canonical (htree : tree.IsProper) (habs : p.isAbsolute)
    (h : tree.canonical p = .ok c) : c.normalize = c := by
  obtain ⟨place, hplace, rfl⟩ := exists_reached_of_canonical habs h
  exact place.normalize_path fun s hs => (hplace.isFileName htree s hs).toIsEntryName

end FileTree

end RemoteImports
