import RemoteImports.Ignore.Scope
import RemoteImports.Proofs.FileTree.Places

/-!
# Ignore files and the start of a walk

What ignore files say about an entry depends on the directories at and above it, not on where a walk
has started. A walk keeps the levels that it has entered apart from those above its start; put
together they are the levels of all directories from the current one to the top
(`IgnoreScope.IsInside`), and the verdict asks them in this order (`verdict?_eq_verdictOf`).
-/

namespace RemoteImports

open FilePath
open OsString (slash dot)

namespace IgnoreScope

variable {scope scope' : IgnoreScope} {inner above : List IgnoreLevel} {path : List UInt8}
  {isDirectory : Bool}

/-! ## Levels in one list -/

theorem firstVerdict?_append (rulesOf : IgnoreLevel → IgnoreRules) (path : List UInt8)
    (isDirectory : Bool) (inner above : List IgnoreLevel) :
    firstVerdict? rulesOf path isDirectory (inner ++ above) =
      (firstVerdict? rulesOf path isDirectory inner).or
        (firstVerdict? rulesOf path isDirectory above) :=
  List.findSome?_append

theorem upToRepository_append (inner above : List IgnoreLevel) :
    upToRepository (inner ++ above) =
      upToRepository inner ++ if inner.any (·.isRepository) then [] else upToRepository above := by
  induction inner with
  | nil => rfl
  | cons level rest ih =>
    rw [List.cons_append, upToRepository, upToRepository, List.any_cons]
    by_cases hlevel : level.isRepository
    · simp [hlevel]
    · simp [hlevel, ih]

/-- What the ignore files of some levels, nearest first, and the global rules say about a path. -/
def verdictOf (levels : List IgnoreLevel) (global : IgnoreRules) (path : List UInt8)
    (isDirectory : Bool) : Option Verdict :=
  let tool := firstVerdict? IgnoreLevel.tool path isDirectory levels
  if levels.any (·.isRepository) then
    let levels := upToRepository levels
    tool.or <| (firstVerdict? IgnoreLevel.repository path isDirectory levels).or <|
      (firstVerdict? IgnoreLevel.exclusions path isDirectory levels).or
        (global.verdict? path isDirectory)
  else tool

/-- **The verdict of a scope** is the one of its levels in one list, if the path looks the same from
above the start of the walk. -/
theorem verdict?_eq_verdictOf {p : FilePath}
    (hpath : scope.pathFromAbove (IgnoreRules.withoutDot p.bytes) =
      IgnoreRules.withoutDot p.bytes) (isDirectory : Bool) :
    scope.verdict? p isDirectory =
      verdictOf (scope.inner ++ scope.above) scope.global (IgnoreRules.withoutDot p.bytes)
        isDirectory := by
  have hany : scope.inRepository = (scope.inner ++ scope.above).any (·.isRepository) := by
    rw [inRepository, List.any_append]
  simp only [verdict?, verdictOf, hpath, hany, firstVerdict?_append, upToRepository_append]

/-! ## Paths from above the start -/

theorem dropStart_append (start rest : List UInt8) :
    IgnoreRules.dropStart start (start ++ rest) = rest := by
  rw [IgnoreRules.dropStart, List.isPrefixOf?_eq_some_iff_append_eq.2 rfl, Option.getD_some]

theorem dropStart_slash {bytes : List UInt8} (h : bytes.head? ≠ some slash) :
    IgnoreRules.dropStart [slash] bytes = bytes := by
  cases bytes with
  | nil => rfl
  | cons b rest =>
    have hb : (slash == b) = false := beq_false_of_ne fun he => h (congrArg some he.symm)
    rw [IgnoreRules.dropStart, List.isPrefixOf?, hb]
    rfl

theorem withoutDot_path (place : Location) :
    IgnoreRules.withoutDot place.path.bytes = place.path.bytes := by
  rw [Location.path, OsString.bytes_append, List.singleton_append]
  rfl

/-- A path below a place without the place and the slash after it. -/
theorem dropStart_path {place names : Location} (h : ∀ s ∈ place ++ names, IsEntryName s)
    (hne : names ≠ []) :
    IgnoreRules.dropStart [slash] (IgnoreRules.dropStart place.path.bytes
        (Location.path (place ++ names)).bytes) = (OsString.join names).bytes := by
  have hhead := Location.head?_bytes_join hne fun s hs => h s (List.mem_append_right _ hs)
  rcases eq_or_ne place [] with rfl | hplace
  · have hbytes : (Location.path ([] ++ names)).bytes =
        (Location.path []).bytes ++ (OsString.join names).bytes := rfl
    rw [hbytes, dropStart_append]
    exact dropStart_slash hhead
  · have hbytes : (Location.path (place ++ names)).bytes =
        place.path.bytes ++ ([slash] ++ (OsString.join names).bytes) := by
      rw [Location.path, Location.path, OsString.join_append hplace hne]
      simp [OsString.bytes_append]
    rw [hbytes, dropStart_append, dropStart_append]

/-! ## Scopes of walks -/

/-- The directories that have a say inside of a place: the place and those above it. -/
def levelsAt (tree : FileTree) (place : Location) : List IgnoreLevel :=
  (place.path :: parents place).map (IgnoreLevel.ofDirectory tree)

/-- The scope that a walk from a start has inside of a directory. -/
structure IsInside (tree : FileTree) (env : Environment) (start place : Location)
    (scope : IgnoreScope) : Prop where
  levels_eq : scope.inner ++ scope.above = levelsAt tree place
  global_eq : scope.global = GlobalIgnore.rules tree env
  base_eq : scope.base = start.path
  start_eq : ∃ level, scope.inner.getLast? = some level ∧ level.directory = start.path

variable {tree : FileTree} {env : Environment} {start start' place : Location} {s : OsString}

theorem parents_concat (place : Location) (s : OsString) :
    parents (place ++ [s]) = place.path :: parents place := by
  have hearlier : (List.range place.length).map (fun n => Location.path ((place ++ [s]).take n)) =
      (List.range place.length).map fun n => Location.path (place.take n) :=
    List.map_congr_left fun n hn => by
      rw [List.take_append_of_le_length (List.mem_range.1 hn).le]
  rw [parents, List.length_append, List.length_singleton, List.range_succ, List.map_append,
    hearlier, List.reverse_append, List.map_singleton, List.take_left]
  rfl

theorem isInside_atStart (tree : FileTree) (env : Environment) (place : Location) :
    IsInside tree env place place ((atStart tree env place).enter tree place.path) :=
  ⟨rfl, rfl, rfl, _, rfl, rfl⟩

theorem IsInside.enter (h : scope.IsInside tree env start place) (s : OsString) :
    (scope.enter tree (Location.path (place ++ [s]))).IsInside tree env start (place ++ [s]) := by
  obtain ⟨level, hlast, hlevel⟩ := h.start_eq
  refine ⟨?_, h.global_eq, h.base_eq, level, ?_, hlevel⟩
  · rw [levelsAt, parents_concat, List.map_cons]
    exact congrArg _ h.levels_eq
  · rw [IgnoreScope.enter, List.getLast?_cons, hlast]
    rfl

/-- A path below the start of a walk looks the same from above. -/
theorem IsInside.pathFromAbove_eq (h : scope.IsInside tree env start place) {names : Location}
    (hnames : ∀ s ∈ start ++ names, IsEntryName s) (hne : names ≠ []) :
    scope.pathFromAbove (Location.path (start ++ names)).bytes =
      (Location.path (start ++ names)).bytes := by
  obtain ⟨level, hlast, hlevel⟩ := h.start_eq
  have hdot : start.path.bytes ≠ [dot] := by
    intro he
    have habs := start.isAbsolute_path
    rw [isAbsolute, he] at habs
    exact absurd habs (by decide)
  have hstart : ∀ s ∈ start, IsEntryName s := fun s hs => hnames s (List.mem_append_left _ hs)
  have hbelow : ∀ s ∈ names, IsEntryName s := fun s hs => hnames s (List.mem_append_right _ hs)
  rw [pathFromAbove, hlast]
  simp only [hlevel, if_neg hdot, withoutDot_path, dropStart_path hnames hne, h.base_eq,
    Location.join_path hstart hne hbelow]

/-- **What is said about an entry of a directory** does not depend on the start of the walk. -/
theorem IsInside.verdict?_eq (h : scope.IsInside tree env start place) (hstart : start <+: place)
    (hs : ∀ t ∈ place ++ [s], IsEntryName t) (isDirectory : Bool) :
    scope.verdict? (Location.path (place ++ [s])) isDirectory =
      verdictOf (levelsAt tree place) (GlobalIgnore.rules tree env)
        (Location.path (place ++ [s])).bytes isDirectory := by
  obtain ⟨names, rfl⟩ := hstart
  rw [List.append_assoc] at hs ⊢
  have hpath := h.pathFromAbove_eq hs (by simp)
  rw [verdict?_eq_verdictOf (by rw [withoutDot_path, hpath]), h.levels_eq, h.global_eq,
    withoutDot_path]

theorem IsInside.ignores_eq (h : scope.IsInside tree env start place) (hstart : start <+: place)
    (h' : scope'.IsInside tree env start' place) (hstart' : start' <+: place)
    (hs : ∀ t ∈ place ++ [s], IsEntryName t) (isDirectory : Bool) :
    scope.ignores (Location.path (place ++ [s])) isDirectory =
      scope'.ignores (Location.path (place ++ [s])) isDirectory := by
  rw [ignores, ignores, h.verdict?_eq hstart hs, h'.verdict?_eq hstart' hs]

end IgnoreScope

end RemoteImports
