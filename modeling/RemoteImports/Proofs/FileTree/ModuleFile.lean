import RemoteImports.Proofs.FileTree.Relocation
import RemoteImports.Proofs.FileTree.Steps

/-!
# Module files

A way through a tree that goes on after some steps has led to a directory by then, and steps that
stay there change nothing (`follow_append`). So a path is one of a directory if a path that goes on
from it is one of a file (`isDirectory_of_goesOnFrom`), and asking for the directory before its
index files are tried rules none of them out: the file that an import means is the first of its
candidates that is a file (`moduleFile?_first`). Only the empty path is special. It leads nowhere
itself, but a relative path joined to it leads on from the working directory (`moduleFile?_empty`).
-/

namespace RemoteImports

open FilePath

namespace FileTree

variable {tree : FileTree} {dir p target : FilePath} {start : Location} {r : Reach}
  {steps more : List Step} {extensions : List String}
  {jump : Location → FilePath → List Step → Except FileFault Reach}

/-! ## Ways that go on -/

/-- Some way that leads to a directory, however often it stays there. -/
def StopsInDirectory (tree : FileTree) (way : List Step → Except FileFault Reach) : Prop :=
  ∃ place entries, tree.at? place = some (.directory entries) ∧
    ∀ n, way (List.replicate n .here) = .ok (.present place)

theorem followWith_here_of_at? {entries : List (OsString × Entry)}
    (hat : tree.at? start = some (.directory entries)) (n : Nat) :
    tree.followWith jump start (List.replicate n .here) = .ok (.present start) := by
  induction n with
  | zero => rfl
  | succ n ih =>
    rw [List.replicate_succ, followWith, hat]
    exact ih

/-- A way that goes on after some steps has led to a directory by then, if the jumps at links do. -/
theorem followWith_append (hmore : more ≠ [])
    (hjump : ∀ place target rest, jump place target (rest ++ more) = .ok r →
      tree.StopsInDirectory fun stay => jump place target (rest ++ stay))
    (h : tree.followWith jump start (steps ++ more) = .ok r) :
    tree.StopsInDirectory fun stay => tree.followWith jump start (steps ++ stay) := by
  induction steps generalizing start with
  | nil =>
    obtain ⟨step, rest, rfl⟩ := List.exists_cons_of_ne_nil hmore
    rw [List.nil_append, followWith] at h
    split at h
    case h_1 entries hat => exact ⟨start, entries, hat, followWith_here_of_at? hat⟩
    case h_2 | h_3 => cases h
  | cons step rest ih =>
    rw [List.cons_append, followWith] at h
    split at h
    case h_2 | h_3 => cases h
    case h_1 entries hat =>
    cases step with
    | here => simpa only [List.cons_append, followWith, hat] using ih h
    | up => simpa only [List.cons_append, followWith, hat] using ih h
    | name text =>
      simp only [List.cons_append, followWith, hat]
      dsimp only at h
      split at h
      · cases h
      rename_i hsize
      simp only [if_neg hsize]
      split at h
      · -- nothing goes on after a name that its directory lacks
        rw [if_neg (List.append_ne_nil_of_right_ne_nil _ hmore)] at h
        cases h
      · rename_i target hlookup
        simpa only [hlookup] using hjump _ _ _ h
      · rename_i e hlink hlookup
        cases e with
        | link target => exact absurd rfl (hlink target)
        | file | directory => simpa only [hlookup] using ih h

theorem follow_append {links : Nat} (hmore : more ≠ [])
    (h : tree.follow links start (steps ++ more) = .ok r) :
    tree.StopsInDirectory fun stay => tree.follow links start (steps ++ stay) := by
  induction links generalizing start steps with
  | zero => exact followWith_append hmore (fun _ _ _ hjump => by cases hjump) h
  | succ links ih =>
    refine followWith_append hmore (fun place target rest hjump => ?_) h
    rw [← List.append_assoc] at hjump
    simpa only [List.append_assoc] using ih hjump

theorem exists_reach_of_isFile (h : tree.isFile p) :
    ∃ r content, tree.reach p = .ok r ∧ tree.entryAt? (.ok r) = some (.file content) := by
  obtain ⟨content, hcontent⟩ := isFile_iff.1 h
  rw [entry?_eq] at hcontent
  cases hreach : tree.reach p with
  | error fault => simp [hreach, entryAt?] at hcontent
  | ok r => exact ⟨r, content, rfl, hreach ▸ hcontent⟩

/-- Where a path goes on from and leads to a file, there is a directory. -/
theorem isDirectory_of_goesOnFrom (h : p.GoesOnFrom dir) (hdir : dir.bytes ≠ [])
    (hp : tree.isFile p) : tree.isDirectory dir := by
  obtain ⟨r, -, hreach, -⟩ := exists_reach_of_isFile hp
  have hnull : dir.bytes.contains 0 = false := by
    rw [List.contains_eq_mem, decide_eq_false_iff_not]
    intro hzero
    have hzero := h.mem_bytes (by decide) (by decide) hzero
    rw [reach, List.contains_eq_mem, if_pos (decide_eq_true hzero)] at hreach
    cases hreach
  obtain ⟨more, hmore, hsteps⟩ := h.exists_steps
  have hfollow := reach_eq_follow hreach
  rw [startOf, h.isAbsolute_eq, ← startOf, hsteps] at hfollow
  obtain ⟨place, entries, hat, hstay⟩ := follow_append hmore hfollow
  obtain ⟨n, hn⟩ := dir.exists_steps_eq
  have hentry : tree.entry? dir = some (.directory entries) := by
    rw [entry?_eq, reach, hnull, if_neg Bool.false_ne_true, if_neg hdir, hn]
    exact (congrArg tree.entryAt? (hstay n)).trans hat
  rw [isDirectory, hentry]

/-! ## Candidates -/

/-- Only a directory has index files. -/
theorem isDirectory_of_isFile_indexFile {extension : String} (hne : target.bytes ≠ [])
    (h : tree.isFile (target.indexFile extension)) : tree.isDirectory target := by
  have hrelative : FilePath.isAbsolute ⟨"index." ++ extension⟩ = false := rfl
  exact isDirectory_of_goesOnFrom (goesOnFrom_join hne hrelative (List.cons_ne_nil _ _)) hne h

/-- The paths that can be the file of a module, the best one first: the target itself, the target
with an extension written after it, and the index files under it, of which the empty path has
none. -/
def tried (target : FilePath) (extensions : List String) : List FilePath :=
  target :: extensions.map (fun e : String => ⟨target.toOsString ++ "." ++ e⟩) ++
    if target.bytes = [] then [] else extensions.map fun e : String => target.join ⟨"index." ++ e⟩

theorem moduleFile?_eq_find? (tree : FileTree) (target : FilePath) (extensions : List String) :
    tree.moduleFile? target extensions = (tried target extensions).find? tree.isFile := by
  by_cases hfile : tree.isFile target = true
  · rw [moduleFile?, if_pos hfile, tried, List.cons_append, List.find?_cons_of_pos hfile]
  have hextended : extensions.map (fun e : String => (⟨target.toOsString ++ "." ++ e⟩ : FilePath)) =
      extensions.map target.withExtension := rfl
  rw [moduleFile?, if_neg hfile, tried, List.cons_append, List.find?_cons_of_neg hfile,
    List.find?_append, hextended]
  cases (extensions.map target.withExtension).find? tree.isFile with
  | some file => rfl
  | none =>
    rw [Option.none_or]
    by_cases hempty : target.bytes = []
    · have hdir : tree.isDirectory target = false := by
        rw [isDirectory, entry?, locate, reach, hempty]
        rfl
      rw [if_pos hempty, hdir]
      rfl
    rw [if_neg hempty]
    by_cases hdir : tree.isDirectory target = true
    · exact if_pos hdir
    · -- what is no directory has no index files that asking for it would rule out
      refine (if_neg hdir).trans (Eq.symm (List.find?_eq_none.2 fun p hp hisFile => ?_))
      obtain ⟨extension, -, rfl⟩ := List.mem_map.1 hp
      exact hdir (isDirectory_of_isFile_indexFile hempty hisFile)

/-- **The file that an import means** is the first of its candidates that is a file. -/
theorem moduleFile?_first (tree : FileTree) (target : FilePath) (extensions : List String) :
    tree.moduleFile? target extensions = (tried target extensions).find? tree.isFile ∧
    (tree.moduleFile? target extensions = none ↔
      ∀ p ∈ tried target extensions, tree.isFile p = false) ∧
    ∀ file, tree.moduleFile? target extensions = some file ↔
      tree.isFile file = true ∧ ∃ before after, tried target extensions = before ++ file :: after ∧
        ∀ p ∈ before, tree.isFile p = false := by
  refine ⟨moduleFile?_eq_find? tree target extensions, ?_, fun file => ?_⟩
  · rw [moduleFile?_eq_find?, List.find?_eq_none]
    simp
  · rw [moduleFile?_eq_find?, List.find?_eq_some_iff_append]
    simp

/-- A working directory with no file of its own: a file is one directory further down. -/
def annexTree : FileTree where
  top := .directory [("app", .directory [("index.a",
    .directory [("b", .file (.text "run();\n"))])])]
  working := ["app"]

/-- A single step does not lead to a file from there. -/
theorem isFile_annexTree (habs : p.isAbsolute = false) {step : Step} {n : Nat}
    (hsteps : p.steps = step :: List.replicate n .here) : annexTree.isFile p = false := by
  rw [← Bool.not_eq_true]
  intro hfile
  obtain ⟨r, content, hreach, hcontent⟩ := exists_reach_of_isFile hfile
  have hfollow := reach_eq_follow hreach
  rw [startOf, habs, hsteps] at hfollow
  -- staying in a directory does not lead to a file
  have hstay {place : Location} {entries : List (OsString × Entry)}
      (hat : annexTree.at? place = some (.directory entries)) :
      annexTree.follow linkLimit place (List.replicate n .here) ≠ .ok r := by
    intro hr
    have hplace := (followWith_here_of_at? hat n).symm.trans hr
    rw [← Except.ok.inj hplace] at hcontent
    cases hat.symm.trans hcontent
  cases step with
  | here => exact @hstay ["app"] _ rfl hfollow
  | up => exact @hstay [] _ rfl hfollow
  | name text =>
    change annexTree.followWith _ ["app"] (.name text :: List.replicate n .here) = .ok r at hfollow
    rw [followWith] at hfollow
    change (if nameLimit < text.bytes.length then _ else _) = Except.ok r at hfollow
    split at hfollow
    · cases hfollow
    by_cases htext : text = "index.a"
    · subst htext
      exact @hstay ["app", "index.a"] _ rfl hfollow
    · have hlookup : List.lookup text
          [(.ofText "index.a", Entry.directory [("b", .file (.text "run();\n"))])] = none := by
        simp [htext]
      rw [hlookup] at hfollow
      change (if _ then _ else _) = Except.ok r at hfollow
      split at hfollow
      · rw [← Except.ok.inj hfollow] at hcontent
        cases hcontent
      · cases hfollow

/-- The empty path is no directory, though a file may be found below it. The parent of every file of
this tree is a directory. -/
theorem moduleFile?_empty :
    (∀ p dir, annexTree.isFile p = true → p.parent? = some dir →
      annexTree.isDirectory dir = true) ∧
    annexTree.moduleFile? ⟨""⟩ ["a/b"] = none ∧
    (⟨""⟩ :: ["a/b"].map (fun e : String => FilePath.mk ("" ++ "." ++ e)) ++
      ["a/b"].map fun e : String => FilePath.join ⟨""⟩ ⟨"index." ++ e⟩).find? annexTree.isFile =
        some ⟨"index.a/b"⟩ := by
  refine ⟨fun p dir hp hdir => ?_, by decide +kernel, by decide +kernel⟩
  obtain ⟨hgoesOn, hsingle⟩ := goesOnFrom_of_parent? hdir
  by_cases hempty : dir.bytes = []
  · obtain ⟨step, n, hsteps⟩ := hsingle hempty
    have habs : dir.isAbsolute = false := by
      rw [isAbsolute, hempty]
      rfl
    rw [isFile_annexTree (hgoesOn.isAbsolute_eq.trans habs) hsteps] at hp
    cases hp
  · exact isDirectory_of_goesOnFrom hgoesOn hempty hp

end FileTree

end RemoteImports
