import RemoteImports.FileTree
import RemoteImports.FileTree.Fault

/-!
# Following paths and reading files

A path is followed step by step from the top or from the working directory. Every step needs a
directory to start from, so a slash at the end asks for a directory; a step to the parent leaves the
directory that was really reached; a symbolic link is replaced by its target, at most `linkLimit`
times. On top of that stand the questions about a path (`isFile`, `isDirectory`), `read`,
`canonical` and `write`.
-/

namespace RemoteImports

open OsString (slash dot)

/-- One step on the way through a tree. -/
inductive Step
  /-- Stay, if this is a directory. -/
  | here
  /-- Go to the parent directory. -/
  | up
  /-- Go to an entry of the directory. -/
  | name (name : OsString)
  deriving DecidableEq, Inhabited, Repr

/-- The step for a piece between slashes, if it is not empty. -/
def Step.ofPiece? (piece : List UInt8) : Option Step :=
  if piece = [] then none
  else if piece = [dot] then some here
  else if piece = [dot, dot] then some up
  else some (name ⟨piece⟩)

namespace FilePath

/-- Whether a path ends in a slash. -/
def endsInSlash (p : FilePath) : Bool := p.bytes.getLast? = some slash

/-- The steps of a path without regard to a slash at its end. -/
def plainSteps (p : FilePath) : List Step := p.pieces.filterMap Step.ofPiece?

/-- The steps of a path. A slash at the end stays at the directory it follows. -/
def steps (p : FilePath) : List Step :=
  if p.endsInSlash then p.plainSteps ++ [.here] else p.plainSteps

end FilePath

/-- Where a path leads. -/
inductive Reach
  /-- To an entry of the tree. -/
  | present (place : Location)
  /-- To a name that its directory does not have. -/
  | absent (directory : Location) (name : OsString)
  deriving DecidableEq, Inhabited, Repr

/-- The most symbolic links that are followed for one path. -/
def linkLimit : Nat := 40

/-- The most bytes of a name. -/
def nameLimit : Nat := 255

namespace FileTree

/-- Follows steps from a place; a symbolic link is handed over with the directory that holds it, its
target, and the steps after it. -/
def followWith (tree : FileTree)
    (jump : Location → FilePath → List Step → Except FileFault Reach) :
    Location → List Step → Except FileFault Reach
  | place, [] => .ok (.present place)
  | place, step :: rest =>
    match tree.at? place with
    | some (.directory entries) =>
      match step with
      | .here => followWith tree jump place rest
      | .up => followWith tree jump place.dropLast rest
      | .name name =>
        if nameLimit < name.bytes.length then .error .nameTooLong
        else
          match entries.lookup name with
          | none => if rest = [] then .ok (.absent place name) else .error .notFound
          | some (.link target) => jump place target rest
          | some _ => followWith tree jump (place ++ [name]) rest
    | some _ => .error .notDirectory
    | none => .error .notFound

/-- Follows steps from a place, with a bound on the symbolic links that may be met. -/
def follow (tree : FileTree) : Nat → Location → List Step → Except FileFault Reach
  | 0 => tree.followWith fun _ _ _ => .error .tooManyLinks
  | links + 1 => tree.followWith fun place target rest =>
      follow tree links (if target.isAbsolute then [] else place) (target.steps ++ rest)

/-- The place that a path starts from. -/
def startOf (tree : FileTree) (p : FilePath) : Location :=
  if p.isAbsolute then [] else tree.working

/-- Where a path leads. -/
def reach (tree : FileTree) (p : FilePath) : Except FileFault Reach :=
  if p.bytes.contains 0 then .error .nullCharacter
  else if p.bytes = [] then .error .notFound
  else tree.follow linkLimit (tree.startOf p) p.steps

/-- The place that a path leads to. -/
def locate (tree : FileTree) (p : FilePath) : Except FileFault Location :=
  match tree.reach p with
  | .ok (.present place) => .ok place
  | .ok (.absent _ _) => .error .notFound
  | .error fault => .error fault

/-- The entry that a path leads to, symbolic links followed. -/
def entry? (tree : FileTree) (p : FilePath) : Option Entry :=
  match tree.locate p with
  | .ok place => tree.at? place
  | .error _ => none

/-- Whether a path leads to anything. -/
def contains (tree : FileTree) (p : FilePath) : Bool := (tree.entry? p).isSome

/-- Whether a path leads to a file. -/
def isFile (tree : FileTree) (p : FilePath) : Bool :=
  match tree.entry? p with
  | some (.file _) => true
  | _ => false

/-- Whether a path leads to a directory. -/
def isDirectory (tree : FileTree) (p : FilePath) : Bool :=
  match tree.entry? p with
  | some (.directory _) => true
  | _ => false

/-- The text of the file that a path leads to. -/
def read (tree : FileTree) (p : FilePath) : Except FileFault String := do
  match tree.at? (← tree.locate p) with
  | some (.file (.text text)) => .ok text
  | some (.file (.binary _)) => .error .notText
  | some (.directory _) => .error .isDirectory
  | _ => .error .notFound

/-- The absolute path without links and dots that leads to the same place. -/
def canonical (tree : FileTree) (p : FilePath) : Except FileFault FilePath :=
  (tree.locate p).map Location.path

/-- Follows the steps of a path that a file is to be written to. A slash at its end asks for a
directory, which no file can be. -/
def reachForWriting (tree : FileTree) (p : FilePath) : Except FileFault Reach := do
  if p.endsInSlash then
    let _ ← tree.follow linkLimit (tree.startOf p) (p.plainSteps.dropLast ++ [.here])
    .error .isDirectory
  else tree.reach p

/-- The tree after a text is written to the file that a path leads to. The file is made if its
directory lacks it. -/
def write (tree : FileTree) (p : FilePath) (text : String) : Except FileFault FileTree := do
  match ← tree.reachForWriting p with
  | .absent directory name => .ok (tree.put (directory ++ [name]) (.file (.text text)))
  | .present place =>
    match tree.at? place with
    | some (.file _) => .ok (tree.put place (.file (.text text)))
    | _ => .error .isDirectory

end FileTree

end RemoteImports
