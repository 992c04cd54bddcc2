import Mathlib.Data.List.Forall2
import RemoteImports.Proofs.FileTree.Places
import RemoteImports.Proofs.FileTree.Write

/-!
# Trees that agree below two directories

The same names lead from two directories to the same kinds of entries and the same files
(`FileTree.SameBelow`). Then a path below the one directory and its counterpart below the other
(`FilePath.Corresponds`) mean the same module file, up to the directory (`rel_moduleFile?`).
Directories with equal entries, none of them a link, agree in this sense wherever they are
(`sameBelow_of_at?_eq`).
-/

namespace RemoteImports

open FilePath
open OsString (dot)

/-! ## Related lists -/

/-- What is found first in related lists is related. -/
theorem rel_find?_of_forall₂ {α β : Type} {r : α → β → Prop} {p : α → Bool} {q : β → Bool}
    {as : List α} {bs : List β} (h : List.Forall₂ r as bs) (hpq : ∀ a b, r a b → p a = q b) :
    Option.Rel r (as.find? p) (bs.find? q) := by
  induction h with
  | nil => exact .none
  | @cons a b as bs hab _ ih =>
    rw [List.find?_cons, List.find?_cons, hpq a b hab]
    cases q b with
    | false => exact ih
    | true => exact .some hab

theorem exists_mem_of_forall₂ {α β : Type} {r : α → β → Prop} {as : List α} {bs : List β}
    (h : List.Forall₂ r as bs) {a : α} (ha : a ∈ as) : ∃ b ∈ bs, r a b := by
  induction h with
  | nil => cases ha
  | @cons first b rest bs hfirst _ ih =>
    rcases List.mem_cons.1 ha with rfl | ha
    · exact ⟨b, List.mem_cons_self, hfirst⟩
    · obtain ⟨b', hb', hab⟩ := ih ha
      exact ⟨b', List.mem_cons_of_mem _ hb', hab⟩

/-! ## Corresponding paths -/

namespace FilePath

/-- Names that lead from a directory to something below it. -/
structure IsWayDown (names : List OsString) : Prop where
  ne_nil : names ≠ []
  isEntryName : ∀ s ∈ names, IsEntryName s

/-- The path that some names lead to from a directory. -/
def descend (dir : FilePath) (names : List OsString) : FilePath := dir.join ⟨OsString.join names⟩

/-- The same names lead to two paths from two directories. -/
def Corresponds (dir dir' p p' : FilePath) : Prop :=
  ∃ names, IsWayDown names ∧ p = dir.descend names ∧ p' = dir'.descend names

end FilePath

/-- Two trees agree below two directories: the same names lead to a directory in both or in neither,
and to files with the same content. -/
structure FileTree.SameBelow (tree tree' : FileTree) (dir dir' : FilePath) : Prop where
  isDirectory_eq : ∀ names, IsWayDown names →
    tree.isDirectory (dir.descend names) = tree'.isDirectory (dir'.descend names)
  file_iff : ∀ names, IsWayDown names → ∀ content,
    tree.entry? (dir.descend names) = some (.file content) ↔
      tree'.entry? (dir'.descend names) = some (.file content)

section Places

variable {place place' : Location} {p p' : FilePath} {names : List OsString} {extension : String}

theorem Location.descend_path (h : ∀ s ∈ place, IsEntryName s) (hnames : IsWayDown names) :
    place.path.descend names = Location.path (place ++ names) :=
  join_path h hnames.ne_nil hnames.isEntryName

theorem FilePath.corresponds_path_iff (h : ∀ s ∈ place, IsEntryName s)
    (h' : ∀ s ∈ place', IsEntryName s) :
    Corresponds place.path place'.path p p' ↔
      ∃ names, IsWayDown names ∧ p = Location.path (place ++ names) ∧
        p' = Location.path (place' ++ names) := by
  refine exists_congr fun names => and_congr_right fun hnames => ?_
  rw [Location.descend_path h hnames, Location.descend_path h' hnames]

theorem FilePath.Corresponds.getLast?_components (h : ∀ s ∈ place, IsEntryName s)
    (h' : ∀ s ∈ place', IsEntryName s) (hp : Corresponds place.path place'.path p p') :
    p.components.getLast? = p'.components.getLast? := by
  obtain ⟨names, ⟨hne, hnames⟩, rfl, rfl⟩ := (corresponds_path_iff h h').1 hp
  rw [Location.components_path (List.forall_mem_append.2 ⟨h, hnames⟩),
    Location.components_path (List.forall_mem_append.2 ⟨h', hnames⟩), List.map_append,
    List.map_append, ← List.cons_append, ← List.cons_append,
    List.getLast?_append_of_ne_nil _ (by simpa using hne),
    List.getLast?_append_of_ne_nil _ (by simpa using hne)]

theorem FilePath.isEntryName_withExtension {s : OsString} (hs : IsEntryName s)
    (hextension : '/' ∉ extension.toList) : IsEntryName (s ++ "." ++ extension) := by
  have hbytes : (s ++ "." ++ extension : OsString).bytes =
      s.bytes ++ dot :: (OsString.ofText extension).bytes := List.append_assoc ..
  obtain ⟨b, rest, hb⟩ := List.exists_cons_of_ne_nil hs.ne_empty
  constructor
  case ne_empty =>
    rw [hbytes, hb]
    exact List.cons_ne_nil _ _
  case ne_dot =>
    rw [hbytes, hb]
    simp
  case ne_dots =>
    rw [hbytes, hb, List.cons_append]
    intro hdots
    obtain ⟨rfl, hrest⟩ := List.cons.inj hdots
    rcases List.append_eq_singleton_iff.1 hrest with ⟨rfl, -⟩ | ⟨-, hnil⟩
    · exact hs.ne_dot hb
    · cases hnil
  case slash_notMem =>
    rw [hbytes, List.mem_append, List.mem_cons]
    rintro (h | h | h)
    · exact hs.slash_notMem h
    · exact absurd h (by decide)
    · exact hextension (OsString.slash_mem_ofText_iff.1 h)

theorem FilePath.isEntryName_index (hextension : '/' ∉ extension.toList) :
    IsEntryName ("index." ++ extension) := by
  have hindex : IsEntryName "index" := by decide +kernel
  exact isEntryName_withExtension hindex hextension

/-! ## Corresponding module files -/

variable {tree tree' : FileTree} {extensions : List String}

namespace FileTree

theorem isFile_iff {p : FilePath} :
    tree.isFile p ↔ ∃ content, tree.entry? p = some (.file content) := by
  unfold isFile
  split
  · rename_i content hfile
    exact iff_of_true rfl ⟨content, hfile⟩
  · rename_i hnone
    exact iff_of_false Bool.false_ne_true fun ⟨content, hfile⟩ => hnone content hfile

/-- A file reads as its content says. -/
theorem read_congr {content : Content} (h : tree.entry? p = some (.file content))
    (h' : tree'.entry? p' = some (.file content)) : tree.read p = tree'.read p' := by
  have hread : ∀ {tree : FileTree} {p : FilePath}, tree.entry? p = some (.file content) →
      tree.read p = match content with
        | .text text => .ok text
        | .binary _ => .error .notText := by
    intro tree p h
    unfold entry? at h
    rw [read]
    cases hlocate : tree.locate p with
    | error fault => simp [hlocate] at h
    | ok place =>
      simp only [hlocate] at h
      simp only [bind, Except.bind, h]
      cases content <;> rfl
  rw [hread h, hread h']

/-- A module file is a file. -/
theorem isFile_of_moduleFile? (h : tree.moduleFile? p extensions = some p') : tree.isFile p' := by
  unfold moduleFile? at h
  split at h
  · rename_i hfile
    exact Option.some.inj h ▸ hfile
  · split at h
    · rename_i hfind
      exact Option.some.inj h ▸ List.find?_some hfind
    · split at h
      · exact List.find?_some h
      · cases h

namespace SameBelow

variable {dir dir' : FilePath}

theorem isFile_eq (h : tree.SameBelow tree' dir dir') (hp : Corresponds dir dir' p p') :
    tree.isFile p = tree'.isFile p' := by
  obtain ⟨names, hnames, rfl, rfl⟩ := hp
  rw [Bool.eq_iff_iff, isFile_iff, isFile_iff]
  exact exists_congr fun content => h.file_iff names hnames content

theorem read_eq (h : tree.SameBelow tree' dir dir') (hp : Corresponds dir dir' p p')
    (hfile : tree.isFile p) : tree.read p = tree'.read p' := by
  obtain ⟨names, hnames, rfl, rfl⟩ := hp
  obtain ⟨content, hcontent⟩ := isFile_iff.1 hfile
  exact read_congr hcontent ((h.file_iff names hnames content).1 hcontent)

end SameBelow

end FileTree

theorem FilePath.Corresponds.withExtension (h : ∀ s ∈ place, IsEntryName s)
    (h' : ∀ s ∈ place', IsEntryName s) (hp : Corresponds place.path place'.path p p')
    (hextension : '/' ∉ extension.toList) :
    Corresponds place.path place'.path (p.withExtension extension)
      (p'.withExtension extension) := by
  rw [corresponds_path_iff h h'] at hp ⊢
  obtain ⟨names, ⟨hne, hnames⟩, rfl, rfl⟩ := hp
  obtain ⟨above, last, rfl⟩ := (List.eq_nil_or_concat' names).resolve_left hne
  refine ⟨above ++ [last ++ "." ++ .ofText extension], ⟨by simp, fun s hs => ?_⟩, ?_, ?_⟩
  · rcases List.mem_append.1 hs with hs | hs
    · exact hnames s (by simp [hs])
    · rw [List.mem_singleton.1 hs]
      exact isEntryName_withExtension (hnames last (by simp)) hextension
  · rw [← List.append_assoc, Location.withExtension_path, List.append_assoc]
  · rw [← List.append_assoc, Location.withExtension_path, List.append_assoc]

theorem FilePath.Corresponds.indexFile (h : ∀ s ∈ place, IsEntryName s)
    (h' : ∀ s ∈ place', IsEntryName s) (hp : Corresponds place.path place'.path p p')
    (hextension : '/' ∉ extension.toList) :
    Corresponds place.path place'.path (p.indexFile extension) (p'.indexFile extension) := by
  rw [corresponds_path_iff h h'] at hp ⊢
  obtain ⟨names, ⟨-, hnames⟩, rfl, rfl⟩ := hp
  have hindex := isEntryName_index hextension
  refine ⟨names ++ [.ofText "index." ++ .ofText extension], ⟨by simp, fun s hs => ?_⟩, ?_, ?_⟩
  · rcases List.mem_append.1 hs with hs | hs
    · exact hnames s hs
    · exact List.mem_singleton.1 hs ▸ hindex
  · rw [FilePath.indexFile, Location.child_path (List.forall_mem_append.2 ⟨h, hnames⟩) hindex,
      List.append_assoc]
  · rw [FilePath.indexFile, Location.child_path (List.forall_mem_append.2 ⟨h', hnames⟩) hindex,
      List.append_assoc]

/-- **Corresponding paths mean corresponding module files.** -/
theorem FileTree.SameBelow.rel_moduleFile? (h : ∀ s ∈ place, IsEntryName s)
    (h' : ∀ s ∈ place', IsEntryName s) (hsame : tree.SameBelow tree' place.path place'.path)
    (hextensions : ∀ extension ∈ extensions, '/' ∉ extension.toList)
    (hp : Corresponds place.path place'.path p p') :
    Option.Rel (Corresponds place.path place'.path) (tree.moduleFile? p extensions)
      (tree'.moduleFile? p' extensions) := by
  have hfind : ∀ f : FilePath → String → FilePath,
      (∀ extension ∈ extensions, Corresponds place.path place'.path (f p extension)
        (f p' extension)) →
      Option.Rel (Corresponds place.path place'.path) ((extensions.map (f p)).find? tree.isFile)
        ((extensions.map (f p')).find? tree'.isFile) := by
    intro f hf
    refine rel_find?_of_forall₂ ?_ fun a b hab => hsame.isFile_eq hab
    rw [List.forall₂_map_left_iff, List.forall₂_map_right_iff, List.forall₂_same]
    exact hf
  have hextended := hfind FilePath.withExtension fun extension hmem =>
    hp.withExtension h h' (hextensions extension hmem)
  have hindex := hfind FilePath.indexFile fun extension hmem =>
    hp.indexFile h h' (hextensions extension hmem)
  have hdirectory : tree.isDirectory p = tree'.isDirectory p' := by
    obtain ⟨names, hnames, rfl, rfl⟩ := hp
    exact hsame.isDirectory_eq names hnames
  unfold moduleFile?
  rw [hsame.isFile_eq hp, hdirectory]
  split
  · exact .some hp
  · generalize (extensions.map p.withExtension).find? tree.isFile = file at hextended
    generalize (extensions.map p'.withExtension).find? tree'.isFile = file' at hextended
    cases hextended with
    | some hfile => exact .some hfile
    | none =>
      dsimp only
      split
      · exact hindex
      · exact .none

/-! ## Equal directories -/

/-- An entry without links. -/
inductive Entry.IsPlain : Entry → Prop
  | file (content : Content) : IsPlain (.file content)
  | directory {entries : List (OsString × Entry)} (h : ∀ entry ∈ entries, IsPlain entry.2) :
      IsPlain (.directory entries)

namespace FileTree

/-- The entry at the end of a way, if it ends at one. -/
def entryAt? (tree : FileTree) : Except FileFault Reach → Option Entry
  | .ok (.present place) => tree.at? place
  | _ => none

theorem entry?_eq (tree : FileTree) (p : FilePath) :
    tree.entry? p = tree.entryAt? (tree.reach p) := by
  unfold entry? locate
  cases tree.reach p with
  | error fault => rfl
  | ok reach => cases reach <;> rfl

/-- Names lead from equal entries without links to equal entries. -/
theorem entryAt?_followWith {jump jump' : Location → FilePath → List Step → Except FileFault Reach}
    {start start' : Location} {e : Entry} (names : List OsString) (hplain : e.IsPlain)
    (hat : tree.at? start = some e) (hat' : tree'.at? start' = some e) :
    tree.entryAt? (tree.followWith jump start (names.map Step.name)) =
      tree'.entryAt? (tree'.followWith jump' start' (names.map Step.name)) := by
  induction names generalizing start start' e with
  | nil => exact hat.trans hat'.symm
  | cons name rest ih =>
    rw [List.map_cons, followWith, followWith, hat, hat']
    cases hplain with
    | file content => rfl
    | @directory entries h =>
      simp only
      split
      · rfl
      · cases hlookup : entries.lookup name with
        | none =>
          dsimp only
          split <;> rfl
        | some next =>
          have hnext := h _ (Entry.mem_of_lookup hlookup)
          have hstep : tree.at? (start ++ [name]) = some next := by
            rw [← lookup_eq_at? hat, hlookup]
          have hstep' : tree'.at? (start' ++ [name]) = some next := by
            rw [← lookup_eq_at? hat', hlookup]
          cases hnext with
          | file content => simpa only [hlookup] using ih (.file content) hstep hstep'
          | directory h => simpa only [hlookup] using ih (.directory h) hstep hstep'

/-- Where names lead below a reached place. -/
theorem Reached.reach_append (h : tree.Reached place) (htree : tree.IsProper)
    (hnames : IsWayDown names) :
    tree.reach (Location.path (place ++ names)) =
      if ∃ s ∈ names, 0 ∈ s.bytes then .error .nullCharacter
      else tree.follow linkLimit place (names.map Step.name) := by
  have hfile := h.isFileName htree
  have hentry : ∀ s ∈ place ++ names, IsEntryName s :=
    List.forall_mem_append.2 ⟨fun s hs => (hfile s hs).toIsEntryName, hnames.isEntryName⟩
  have hne : place ++ names ≠ [] := List.append_ne_nil_of_right_ne_nil _ hnames.ne_nil
  have hnull : (Location.path (place ++ names)).bytes.contains 0 ↔
      ∃ s ∈ names, 0 ∈ s.bytes := by
    rw [List.contains_iff_mem, mem_bytes_iff (by decide) (by decide),
      Location.plainSteps_path hentry]
    constructor
    · rintro ⟨s, hs, hzero⟩
      have hs : s ∈ place ++ names := by simpa using hs
      rcases List.mem_append.1 hs with hs | hs
      · exact absurd hzero (hfile s hs).null_notMem
      · exact ⟨s, hs, hzero⟩
    · rintro ⟨s, hs, hzero⟩
      exact ⟨s, by simp [hs], hzero⟩
  have hempty : (Location.path (place ++ names)).bytes ≠ [] := List.cons_ne_nil _ _
  rw [reach, if_neg hempty, startOf, if_pos (Location.isAbsolute_path _), steps,
    Location.endsInSlash_path hne hentry, if_neg Bool.false_ne_true,
    Location.plainSteps_path hentry, List.map_append, h.follow_names]
  exact if_congr hnull rfl rfl

/-- **Equal directories without links agree**, wherever they are. -/
theorem sameBelow_of_at?_eq {e : Entry} (hplain : e.IsPlain) (htree : tree.IsProper)
    (htree' : tree'.IsProper) (h : tree.Reached place) (h' : tree'.Reached place')
    (hat : tree.at? place = some e) (hat' : tree'.at? place' = some e) :
    tree.SameBelow tree' place.path place'.path := by
  have hentry : ∀ names, IsWayDown names →
      tree.entry? (place.path.descend names) = tree'.entry? (place'.path.descend names) := by
    intro names hnames
    have hfile := h.isFileName htree
    have hfile' := h'.isFileName htree'
    rw [Location.descend_path (fun s hs => (hfile s hs).toIsEntryName) hnames,
      Location.descend_path (fun s hs => (hfile' s hs).toIsEntryName) hnames, entry?_eq, entry?_eq,
      h.reach_append htree hnames, h'.reach_append htree' hnames]
    split
    · rfl
    · exact entryAt?_followWith names hplain hat hat'
  constructor
  · intro names hnames
    rw [isDirectory, isDirectory, hentry names hnames]
  · intro names hnames content
    rw [hentry names hnames]

end FileTree

end Places

end RemoteImports
