import RemoteImports.Proofs.FilePath.Parent
import RemoteImports.Proofs.FileTree.Canonical

/-!
# Entries of a directory

Where the path of an entry leads depends on the components of its directory only, not on how the
directory is written (`reach_child_congr`): repeated slashes vanish, and a dot stays in a directory
that the next step has to start from anyway (`follow_filter_here`).
-/

namespace RemoteImports

open FilePath
open OsString (slash dot)

theorem Step.bytes_of_ofPiece? {piece : List UInt8} {s : OsString}
    (h : Step.ofPiece? piece = some (.name s)) : s.bytes = piece := by
  unfold Step.ofPiece? at h
  split_ifs at h
  · cases h
  · cases h
  · obtain rfl : ⟨piece⟩ = s := by simpa using h
    rfl

namespace FilePath

variable {p dir : FilePath} {s : OsString}

/-- The step that a component stands for on the way through a tree. -/
def Component.step? : Component → Option Step
  | .up => some .up
  | .name text => some (.name text)
  | .root | .here => none

/-- The steps of an entry: those of its directory, then its name. -/
theorem steps_child (dir : FilePath) (hs : IsEntryName s) :
    (dir.child s).steps = dir.plainSteps ++ [.name s] := by
  have hplain : (dir.child s).plainSteps = dir.plainSteps ++ [.name s] := by
    obtain ⟨before, hchild, ⟨hdir, -⟩ | hdir⟩ := exists_pieces_child dir hs
    · rw [plainSteps, plainSteps, hchild, hdir, List.filterMap_append,
        List.filterMap_cons_some (Step.ofPiece?_bytes hs), List.filterMap_nil]
    · rw [plainSteps, plainSteps, hchild, hdir, List.filterMap_append, List.filterMap_append,
        List.filterMap_cons_some (Step.ofPiece?_bytes hs), List.filterMap_nil]
      simp [Step.ofPiece?]
  have hslash : (dir.child s).endsInSlash = false := by
    obtain ⟨before, hchild, -⟩ := exists_bytes_child dir hs
    rw [endsInSlash, hchild, List.getLast?_append_of_ne_nil _ hs.ne_empty, decide_eq_false_iff_not]
    exact fun hlast => hs.slash_notMem (List.mem_of_getLast? hlast)
  rw [steps, hslash, if_neg Bool.false_ne_true, hplain]

/-- The start of a path does not move. -/
theorem filterMap_step?_ofPieces (pieces : List (List UInt8)) :
    (ofPieces pieces).filterMap Component.step? =
      (pieces.filterMap Component.ofPiece?).filterMap Component.step? := by
  unfold ofPieces
  split
  · rw [List.filterMap_cons_none rfl, List.filterMap_cons_none (a := []) rfl]
  · rw [List.filterMap_cons_none rfl]
    exact congrArg (List.filterMap _) (List.filterMap_cons_none rfl).symm
  · rfl

theorem bind_step?_ofPiece? (piece : List UInt8) :
    (Component.ofPiece? piece).bind Component.step? =
      (Step.ofPiece? piece).filter (· ≠ .here) := by
  unfold Component.ofPiece? Step.ofPiece?
  by_cases hempty : piece = []
  · rw [if_pos (.inl hempty), if_pos hempty]
    rfl
  by_cases hdot : piece = [dot]
  · rw [if_pos (.inr hdot), if_neg hempty, if_pos hdot]
    rfl
  rw [if_neg (not_or.2 ⟨hempty, hdot⟩), if_neg hempty, if_neg hdot]
  split
  · rfl
  · rfl

/-- The steps that move are those of the components. -/
theorem filterMap_step?_components (p : FilePath) :
    p.components.filterMap Component.step? = p.plainSteps.filter (· ≠ .here) := by
  rw [components, filterMap_step?_ofPieces, plainSteps, List.filterMap_filterMap,
    List.filter_filterMap]
  exact List.filterMap_congr fun piece _ => bind_step?_ofPiece? piece

/-- A byte that is neither a slash nor a dot stands in the name of a step. -/
theorem mem_bytes_iff {b : UInt8} (hslash : b ≠ slash) (hdot : b ≠ dot) :
    b ∈ p.bytes ↔ ∃ s, .name s ∈ p.plainSteps.filter (· ≠ .here) ∧ b ∈ s.bytes := by
  rw [← Text.exists_mem_splitOn_iff hslash, ← pieces]
  constructor
  · rintro ⟨piece, hpiece, hb⟩
    have hname : Step.ofPiece? piece = some (.name ⟨piece⟩) := by
      rw [Step.ofPiece?, if_neg (List.ne_nil_of_mem hb), if_neg, if_neg]
      · rintro rfl
        simp [hdot] at hb
      · rintro rfl
        simp [hdot] at hb
    refine ⟨⟨piece⟩, ?_, hb⟩
    exact List.mem_filter.2 ⟨List.mem_filterMap.2 ⟨piece, hpiece, hname⟩, by simp⟩
  · rintro ⟨s, hs, hb⟩
    obtain ⟨piece, hpiece, hname⟩ := List.mem_filterMap.1 (List.mem_filter.1 hs).1
    refine ⟨piece, hpiece, ?_⟩
    rwa [← Step.bytes_of_ofPiece? hname]

end FilePath

namespace Location

variable {place : Location}

theorem components_path (h : ∀ s ∈ place, IsEntryName s) :
    place.path.components = .root :: place.map Component.name := by
  rw [path_eq_ofComponents, components_ofComponents_root (isInner_of_mem_names h)]

end Location

namespace FileTree

variable {tree : FileTree} {dir dir' : FilePath} {s : OsString}
  {jump : Location → FilePath → List Step → Except FileFault Reach}

/-- A step that stays before another one asks for nothing that the other one does not. -/
theorem followWith_here {rest : List Step} (place : Location) (hne : rest ≠ []) :
    tree.followWith jump place (.here :: rest) = tree.followWith jump place rest := by
  obtain ⟨next, more, rfl⟩ := List.exists_cons_of_ne_nil hne
  rw [followWith]
  split
  · rfl
  · rename_i e hfile hat
    rw [followWith, hat]
    cases e with
    | directory entries => exact absurd rfl (hfile entries)
    | file | link => rfl
  · rename_i hat
    rw [followWith, hat]

/-- Steps that stay do not change where a name after them leads, if they do not after a link. -/
theorem followWith_filter_here (steps : List Step) (place : Location) (s : OsString)
    (hjump : ∀ place target rest, jump place target (rest ++ [.name s]) =
      jump place target (rest.filter (· ≠ .here) ++ [.name s])) :
    tree.followWith jump place (steps ++ [.name s]) =
      tree.followWith jump place (steps.filter (· ≠ .here) ++ [.name s]) := by
  induction steps generalizing place with
  | nil => rfl
  | cons step rest ih =>
    have hne (before : List Step) : before ++ [.name s] ≠ [] := by simp
    cases step with
    | here =>
      rw [List.filter_cons_of_neg (by simp), ← ih, List.cons_append,
        followWith_here place (hne rest)]
    | up =>
      rw [List.filter_cons_of_pos (by simp), List.cons_append, List.cons_append, followWith,
        followWith]
      simp only [ih]
    | name text =>
      rw [List.filter_cons_of_pos (by simp), List.cons_append, List.cons_append, followWith,
        followWith]
      simp only [if_neg (hne _), ih]
      cases tree.at? place with
      | none => rfl
      | some e =>
        cases e with
        | file | link => rfl
        | directory entries =>
          -- only a link hands the steps after it over
          cases hlookup : entries.lookup text with
          | none => simp only [hlookup]
          | some next =>
            cases next with
            | file | directory => simp only [hlookup]
            | link target => simp only [hlookup, hjump place target rest]

/-- Steps that stay do not change where a name after them leads. -/
theorem follow_filter_here (links : Nat) (steps : List Step) (place : Location) (s : OsString) :
    tree.follow links place (steps ++ [.name s]) =
      tree.follow links place (steps.filter (· ≠ .here) ++ [.name s]) := by
  induction links generalizing steps place with
  | zero => exact followWith_filter_here steps place s fun _ _ _ => rfl
  | succ links ih =>
    refine followWith_filter_here steps place s fun place target rest => ?_
    rw [← List.append_assoc, ih, ← List.append_assoc, ih (target.steps ++ rest.filter (· ≠ .here)),
      List.filter_append, List.filter_append, List.filter_filter]
    simp only [Bool.and_self]

/-- **Where an entry is** does not depend on how the path of its directory is written. -/
theorem reach_child_congr (h : dir.components = dir'.components) (hs : IsEntryName s) :
    tree.reach (dir.child s) = tree.reach (dir'.child s) := by
  have hchild : (dir.child s).components = (dir'.child s).components := by
    rw [components_child dir hs, components_child dir' hs, h]
  have hmoves {p q : FilePath} (h : p.components = q.components) :
      p.plainSteps.filter (· ≠ .here) = q.plainSteps.filter (· ≠ .here) := by
    rw [← filterMap_step?_components, ← filterMap_step?_components, h]
  have hnull : (dir.child s).bytes.contains 0 = (dir'.child s).bytes.contains 0 := by
    rw [Bool.eq_iff_iff, List.contains_iff_mem, List.contains_iff_mem,
      mem_bytes_iff (by decide) (by decide), mem_bytes_iff (by decide) (by decide), hmoves hchild]
  have hempty (d : FilePath) : (d.child s).bytes ≠ [] := by
    intro he
    have hcomponents := components_child d hs
    rw [components, pieces, he] at hcomponents
    exact absurd hcomponents (List.append_ne_nil_of_right_ne_nil _ (by simp)).symm
  rw [reach, reach, hnull, if_neg (hempty dir), if_neg (hempty dir'), startOf, startOf,
    isAbsolute_congr hchild, steps_child dir hs, steps_child dir' hs, follow_filter_here, hmoves h,
    ← follow_filter_here]

/-- Whether a directory has an entry does not either. -/
theorem contains_child_congr (h : dir.components = dir'.components) (hs : IsEntryName s) :
    tree.contains (dir.child s) = tree.contains (dir'.child s) := by
  rw [contains, contains, entry?, entry?, locate, locate, reach_child_congr h hs]

end FileTree

end RemoteImports
