import RemoteImports.Config.Resolve
import RemoteImports.Proofs.FileTree.Entries

/-!
# The configuration file of a project

The project file comes from the directory that is nearest to the working directory, among those at
or above it that hold one (`projectFile?_nearest`). The search goes from parent to parent and passes
over no such directory (`nearest_find?_directoriesWithin`).
-/

namespace RemoteImports

open FilePath FilePath.Component

namespace FilePath

/-- The directory nearest to a path, among those at or above it that have something: any other one
lies at or above it in turn. Without one, none at or above the path has it. -/
def Nearest (p : FilePath) (has : FilePath → Prop) : Option FilePath → Prop
  | some dir => dir.IsAtOrAbove p ∧ has dir ∧
      ∀ other : FilePath, other.IsAtOrAbove p → has other → other.IsAtOrAbove dir
  | none => ∀ other : FilePath, other.IsAtOrAbove p → ¬ has other

namespace Nearest

variable {p q : FilePath} {has : FilePath → Prop} {dir? : Option FilePath}

theorem self (h : has p) : p.Nearest has (some p) :=
  ⟨isAtOrAbove_of_components rfl, h, fun _ hother _ => hother⟩

/-- A path without a parent is the last one to look at. -/
theorem last (hhas : ∀ other : FilePath, other.components = p.components → has other → has p)
    (h : ¬ has p) (hp : p.parent? = none) : p.Nearest has none :=
  fun other hother hfound => h (hhas other (hother.components_eq hp) hfound)

/-- A path that lacks something has it in the same place as its parent. -/
theorem of_parent? (hhas : ∀ other : FilePath, other.components = p.components → has other → has p)
    (h : ¬ has p) (hp : p.parent? = some q) (hq : q.Nearest has dir?) : p.Nearest has dir? := by
  have habove (other : FilePath) (hother : other.IsAtOrAbove p) (hfound : has other) :
      other.IsAtOrAbove q :=
    ((isAtOrAbove_iff_of_parent? hp).1 hother).resolve_left fun hsame => h (hhas other hsame hfound)
  cases dir? with
  | none => exact fun other hother hfound => hq other (habove other hother hfound) hfound
  | some dir =>
    obtain ⟨hdir, hfound, hnearest⟩ := hq
    exact ⟨(isAtOrAbove_iff_of_parent? hp).2 (.inr hdir), hfound,
      fun other hother hfound => hnearest other (habove other hother hfound) hfound⟩

end Nearest

end FilePath

/-- A directory holds a configuration file for a project. -/
def FileTree.HoldsProjectFile (tree : FileTree) (dir : FilePath) : Prop :=
  tree.contains (dir.child Config.projectFileName)

instance (tree : FileTree) (dir : FilePath) : Decidable (tree.HoldsProjectFile dir) :=
  inferInstanceAs (Decidable (tree.contains (dir.child Config.projectFileName) = true))

namespace Config

variable {tree : FileTree} {working p dir file : FilePath}

theorem isEntryName_projectFileName : IsEntryName projectFileName := by decide

/-! ## The search -/

section Search

variable {has : FilePath → Bool}
  (hhas : ∀ d d' : FilePath, d.components = d'.components → has d = has d')

include hhas

theorem nearest_find?_singleton (hp : p.parent? = none) :
    p.Nearest (has ·) ([p].find? has) := by
  by_cases h : has p
  · rw [List.find?_cons_of_pos h]
    exact .self h
  · rw [List.find?_cons_of_neg h, List.find?_nil]
    exact .last (fun other hsame hfound => hhas other p hsame ▸ hfound) h hp

theorem nearest_find?_cons {q : FilePath} {above : List FilePath} (hp : p.parent? = some q)
    (hq : q.Nearest (has ·) (above.find? has)) : p.Nearest (has ·) ((p :: above).find? has) := by
  by_cases h : has p
  · rw [List.find?_cons_of_pos h]
    exact .self h
  · rw [List.find?_cons_of_neg h]
    exact .of_parent? (fun other hsame hfound => hhas other p hsame ▸ hfound) h hp hq

/-- **The search from parent to parent** finds the nearest directory that has something, if it may
take as many steps as the path has components. -/
theorem nearest_find?_directoriesWithin {bound : Nat} (hbound : p.components.length ≤ bound) :
    p.Nearest (has ·) ((directoriesWithin bound p).find? has) := by
  induction bound generalizing p with
  | zero =>
    refine nearest_find?_singleton hhas ?_
    -- a parent would have one component less
    cases hq : p.parent? with
    | none => rfl
    | some q =>
      obtain ⟨c, -, hp⟩ := exists_components_of_parent? hq
      simp [hp] at hbound
  | succ bound ih =>
    rw [directoriesWithin]
    split
    · rename_i hp
      exact nearest_find?_singleton hhas hp
    · rename_i q hq
      obtain ⟨c, -, hp⟩ := exists_components_of_parent? hq
      rw [hp, List.length_append, List.length_singleton] at hbound
      exact nearest_find?_cons hhas hq (ih (Nat.le_of_succ_le_succ hbound))

end Search

/-! ## The file -/

/-- The directory of a project file is the one that holds it. -/
theorem exists_parent?_projectFile (dir : FilePath) :
    ∃ parent, (dir.child projectFileName).parent? = some parent ∧
      parent.components = dir.components := by
  have hchild := components_child dir isEntryName_projectFileName
  cases hparent : (dir.child projectFileName).parent? with
  | none =>
    rcases components_of_parent?_eq_none hparent with hnil | hroot
    · simp [hchild] at hnil
    · have hlast := congrArg List.getLast? (hchild.symm.trans hroot)
      simp at hlast
  | some parent =>
    obtain ⟨c, -, hc⟩ := exists_components_of_parent? hparent
    exact ⟨parent, rfl, (List.append_inj' (hc.symm.trans hchild) rfl).1⟩

/-- **The project file** is the one of the nearest directory that holds one. -/
theorem projectFile?_nearest (tree : FileTree) (working : FilePath) :
    ∃ dir?, working.Nearest tree.HoldsProjectFile dir? ∧
      projectFile? tree working = dir?.map (·.child projectFileName) := by
  refine ⟨_, ?_, List.find?_map⟩
  exact nearest_find?_directoriesWithin
    (fun d d' h => FileTree.contains_child_congr h isEntryName_projectFileName) (Nat.le_succ _)

end Config

end RemoteImports
