import RemoteImports.FileTree
import RemoteImports.Proofs.FilePath.Components

/-!
# Proper file trees

In the tree of a file system a directory has one entry under each of its names, and the names are
such as a path can lead to (`Entry.IsProper`). What stands at a place of a proper tree is proper
(`Entry.IsProper.at?`), and a proper entry can be put at any place with proper names
(`Entry.IsProper.put`).
-/

namespace RemoteImports

/-- A name that an entry of a directory can have. -/
structure IsFileName (s : OsString) : Prop extends FilePath.IsEntryName s where
  null_notMem : 0 ∉ s.bytes

instance (s : OsString) : Decidable (IsFileName s) :=
  decidable_of_iff (FilePath.IsEntryName s ∧ 0 ∉ s.bytes)
    ⟨fun ⟨hname, hnull⟩ => ⟨hname, hnull⟩, fun h => ⟨h.toIsEntryName, h.null_notMem⟩⟩

namespace Entry

/-- Directories name each of their entries once, and by a name that a path can hold. -/
inductive IsProper : Entry → Prop
  | file (content : Content) : IsProper (.file content)
  | link (target : FilePath) : IsProper (.link target)
  | directory {entries : List (OsString × Entry)} (hnodup : (entries.map Prod.fst).Nodup)
      (hnames : ∀ entry ∈ entries, IsFileName entry.1)
      (h : ∀ entry ∈ entries, IsProper entry.2) : IsProper (.directory entries)

variable {e new : Entry} {entries : List (OsString × Entry)} {name : OsString} {place : Location}

theorem mem_of_lookup (h : entries.lookup name = some e) : (name, e) ∈ entries := by
  obtain ⟨before, after, rfl, -⟩ := List.lookup_eq_some_iff.1 h
  simp

theorem isProper_empty : IsProper (.directory []) := .directory (by simp) (by simp) (by simp)

theorem mem_setEntry {entry : OsString × Entry} (h : entry ∈ setEntry name new entries) :
    entry = (name, new) ∨ entry ∈ entries := by
  induction entries with
  | nil => exact .inl (List.mem_singleton.1 h)
  | cons first rest ih =>
    obtain ⟨other, e⟩ := first
    rw [setEntry] at h
    split at h
    · rcases List.mem_cons.1 h with rfl | h
      · exact .inl rfl
      · exact .inr (List.mem_cons_of_mem _ h)
    · rcases List.mem_cons.1 h with rfl | h
      · exact .inr List.mem_cons_self
      · exact (ih h).imp_right (List.mem_cons_of_mem _)

/-- Setting an entry replaces the one with its name, if there is any. -/
theorem nodup_setEntry (h : (entries.map Prod.fst).Nodup) :
    ((setEntry name new entries).map Prod.fst).Nodup := by
  induction entries with
  | nil => simp [setEntry]
  | cons first rest ih =>
    obtain ⟨other, e⟩ := first
    rw [List.map_cons, List.nodup_cons] at h
    rw [setEntry]
    split
    · rename_i hname
      rw [List.map_cons, List.nodup_cons]
      exact ⟨hname ▸ h.1, h.2⟩
    · rename_i hname
      rw [List.map_cons, List.nodup_cons]
      refine ⟨fun hmem => ?_, ih h.2⟩
      obtain ⟨entry, hentry, hother⟩ := List.mem_map.1 hmem
      rcases mem_setEntry hentry with rfl | hentry
      · exact hname hother.symm
      · exact h.1 (List.mem_map.2 ⟨entry, hentry, hother⟩)

namespace IsProper

theorem directoryEntries (h : e.IsProper) : IsProper (.directory e.entries) := by
  cases h with
  | file | link => exact isProper_empty
  | directory hnodup hnames h => exact .directory hnodup hnames h

theorem of_lookup (h : e.IsProper) (hlookup : e.entries.lookup name = some new) :
    IsFileName name ∧ new.IsProper := by
  cases h.directoryEntries with
  | directory _ hnames hproper =>
    exact ⟨hnames _ (mem_of_lookup hlookup), hproper _ (mem_of_lookup hlookup)⟩

/-- **What stands at a place of a proper entry is proper.** -/
theorem at? (h : e.IsProper) (hat : Entry.at? place e = some new) : new.IsProper := by
  induction place generalizing e with
  | nil =>
    cases hat
    exact h
  | cons name rest ih =>
    obtain ⟨inner, hlookup, hat⟩ := Option.bind_eq_some_iff.1 hat
    exact ih (h.of_lookup hlookup).2 hat

/-- Whatever stands at a place, the names that lead there are those of files. -/
theorem isFileName_of_at? (h : e.IsProper) (hat : Entry.at? place e = some new) :
    ∀ s ∈ place, IsFileName s := by
  induction place generalizing e with
  | nil => simp
  | cons name rest ih =>
    obtain ⟨inner, hlookup, hat⟩ := Option.bind_eq_some_iff.1 hat
    obtain ⟨hname, hinner⟩ := h.of_lookup hlookup
    exact List.forall_mem_cons.2 ⟨hname, ih hinner hat⟩

/-- **A proper entry can be put anywhere.** -/
theorem put (h : e.IsProper) (hnew : new.IsProper) (hplace : ∀ s ∈ place, IsFileName s) :
    (Entry.put place new e).IsProper := by
  induction place generalizing e with
  | nil => exact hnew
  | cons name rest ih =>
    obtain ⟨hname, hrest⟩ := List.forall_mem_cons.1 hplace
    have hinner : ((e.entries.lookup name).getD (.directory [])).IsProper := by
      cases hlookup : e.entries.lookup name with
      | none => exact isProper_empty
      | some inner => exact (h.of_lookup hlookup).2
    cases h.directoryEntries with
    | directory hnodup hnames hproper =>
      refine .directory (nodup_setEntry hnodup) (fun entry hentry => ?_) fun entry hentry => ?_
      · rcases mem_setEntry hentry with rfl | hentry
        · exact hname
        · exact hnames entry hentry
      · rcases mem_setEntry hentry with rfl | hentry
        · exact ih hinner hrest
        · exact hproper entry hentry

end IsProper

end Entry

namespace FileTree

/-- The tree of a file system: a proper directory at the top. -/
structure IsProper (tree : FileTree) : Prop where
  isDirectory : tree.top.isDirectory
  top : tree.top.IsProper

variable {tree : FileTree} {e new : Entry} {place : Location}

theorem isProper_empty : empty.IsProper := ⟨rfl, Entry.isProper_empty⟩

theorem IsProper.exists_entries (h : tree.IsProper) :
    ∃ entries, tree.top = .directory entries := by
  have hdirectory := h.isDirectory
  cases htop : tree.top with
  | directory entries => exact ⟨entries, rfl⟩
  | file | link => simp [htop, Entry.isDirectory] at hdirectory

theorem IsProper.at? (h : tree.IsProper) (hat : tree.at? place = some e) : e.IsProper :=
  h.top.at? hat

theorem IsProper.isFileName_of_at? (h : tree.IsProper) (hat : tree.at? place = some e) :
    ∀ s ∈ place, IsFileName s :=
  h.top.isFileName_of_at? hat

theorem IsProper.put (h : tree.IsProper) (hnew : new.IsProper) (hne : place ≠ [])
    (hplace : ∀ s ∈ place, IsFileName s) : (tree.put place new).IsProper := by
  refine ⟨?_, h.top.put hnew hplace⟩
  obtain ⟨name, rest, rfl⟩ := List.exists_cons_of_ne_nil hne
  rfl

end FileTree

end RemoteImports
