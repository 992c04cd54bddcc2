import RemoteImports.Failure
import RemoteImports.Ignore.Scope

/-!
# Discovering source files

The files below a directory that a run looks at: those with one of the extensions that no ignore
rule hides, that no exclude pattern matches and, if there are include patterns, that one of them
matches. Patterns are tried on the path below the directory and on the path itself. Dependency
directories and the store of version control are never entered, nor are links to directories. The
result is in the order of paths.
-/

namespace RemoteImports

/-- Which files a discovery is after. -/
structure FileSelection where
  extensions : List String
  /-- Patterns one of which has to match; without any, every file passes. -/
  includes : List (List GlobToken)
  /-- Patterns none of which may match. -/
  excludes : List (List GlobToken)
  deriving Inhabited

namespace FileSelection

/-- The tokens of some patterns; the first that breaks the rules of patterns is a failure. -/
def patterns : List String → Except Failure (List (List GlobToken))
  | [] => .ok []
  | pattern :: rest =>
    match Glob.parse false pattern with
    | .error fault => .error (.glob pattern fault)
    | .ok tokens => (patterns rest).map (tokens :: ·)

/-- The selection by extensions and patterns. -/
def ofPatterns (extensions includes excludes : List String) : Except Failure FileSelection := do
  let excludes ← patterns excludes
  let includes ← patterns includes
  .ok ⟨extensions, includes, excludes⟩

/-- Whether one of some patterns matches a path or its part below the start. -/
def anyMatches (patterns : List (List GlobToken)) (below : OsString) (p : FilePath) : Bool :=
  patterns.any fun tokens =>
    Glob.isMatch false tokens below || Glob.isMatch false tokens p.toOsString

/-- Whether a file is selected. -/
def selects (selection : FileSelection) (below : OsString) (p : FilePath) : Bool :=
  (p.extension?.any selection.extensions.contains) &&
    !anyMatches selection.excludes below p &&
    (selection.includes.isEmpty || anyMatches selection.includes below p)

end FileSelection

/-- The names that a walk never enters or lists. -/
def isSkippedName (name : OsString) : Bool := name == "node_modules" || name == ".git"

/-- A file that a walk meets. -/
structure FoundFile where
  path : FilePath
  /-- The names that lead to it from the start of the walk. -/
  below : List OsString
  deriving DecidableEq, Inhabited, Repr

namespace FileTree

mutual

/-- The files at or below an entry with a path. -/
def filesAt (tree : FileTree) (scope : IgnoreScope) (p : FilePath) (below : List OsString) :
    Entry → List FoundFile
  | .file _ => if scope.ignores p false then [] else [⟨p, below⟩]
  | .link _ => if scope.ignores p false || !tree.isFile p then [] else [⟨p, below⟩]
  | .directory entries =>
    if scope.ignores p true then [] else filesIn tree (scope.enter tree p) p below entries

/-- The files at or below the entries of a directory. -/
def filesIn (tree : FileTree) (scope : IgnoreScope) (dir : FilePath) (below : List OsString) :
    List (OsString × Entry) → List FoundFile
  | [] => []
  | (name, entry) :: rest =>
    (if isSkippedName name then []
      else filesAt tree scope (dir.child name) (below ++ [name]) entry) ++
    filesIn tree scope dir below rest

end

/-- The files at or below a path that no ignore rule hides. The path itself is always looked at. -/
def walk (tree : FileTree) (env : Environment) (root : FilePath) : List FoundFile :=
  match tree.locate root with
  | .error _ => []
  | .ok place =>
    match tree.at? place with
    | some (.directory entries) =>
      filesIn tree ((IgnoreScope.atStart tree env place).enter tree root) root [] entries
    | some (.file _) => [⟨root, []⟩]
    | _ => []

/-- The selected files at or below a path, in order. -/
def discover (tree : FileTree) (env : Environment) (root : FilePath) (selection : FileSelection) :
    List FilePath :=
  let found := (tree.walk env root).filter fun file =>
    selection.selects (OsString.join file.below) file.path
  (found.map FoundFile.path).mergeSort fun p q => !q.before p

end FileTree

end RemoteImports
