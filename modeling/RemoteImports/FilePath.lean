import RemoteImports.OsString
import RemoteImports.Text.Split

/-!
# File paths

A path is kept as it was written, byte by byte. Its meaning is the list of its components: repeated
slashes and inner dots vanish, and a leading dot of a relative path stays. Paths are compared and
ordered by components, joined byte by byte, and shown as far as they are texts.
-/

namespace RemoteImports

/-- A path as written. Its bytes need not encode a text. -/
structure FilePath extends OsString where
  ofOsString ::
  deriving DecidableEq, Inhabited, Repr

namespace FilePath

open OsString (slash dot)

/-- The path that a text is. -/
def mk (text : String) : FilePath := ⟨text⟩

instance : Coe String FilePath := ⟨mk⟩

/-- What is shown of a path. -/
def text (p : FilePath) : String := p.toOsString.text

/-- One step of a path. -/
inductive Component
  /-- The top of the file system; only ever the first step. -/
  | root
  /-- The leading dot of a relative path. -/
  | here
  /-- The parent directory. -/
  | up
  /-- An entry of a directory. -/
  | name (name : OsString)
  deriving DecidableEq, Inhabited, Repr

namespace Component

/-- A component as it is written inside a path. -/
def written : Component → OsString
  | root => ⟨[slash]⟩
  | here => ⟨[dot]⟩
  | up => ⟨[dot, dot]⟩
  | name s => s

/-- Components are ordered by kind, names by their bytes. -/
def rank : Component → Nat
  | root => 0
  | here => 1
  | up => 2
  | name _ => 3

/-- The order of paths in listings. -/
def before : Component → Component → Bool
  | name a, name b => a.bytes < b.bytes
  | a, b => a.rank < b.rank

/-- The component that a piece between slashes stands for, if it is not empty or a dot. -/
def ofPiece? (piece : List UInt8) : Option Component :=
  if piece = [] ∨ piece = [dot] then none
  else if piece = [dot, dot] then some up
  else some (name ⟨piece⟩)

end Component

open Component

/-- The pieces of a path between its slashes. -/
def pieces (p : FilePath) : List (List UInt8) := p.bytes.splitOn slash

/-- The components of a path, given its pieces. A path that starts with a slash has an empty first
piece. -/
def ofPieces : List (List UInt8) → List Component
  | [] :: rest@(_ :: _) => root :: rest.filterMap ofPiece?
  | [dot] :: rest => here :: rest.filterMap ofPiece?
  | pieces => pieces.filterMap ofPiece?

/-- The components of a path. -/
def components (p : FilePath) : List Component := ofPieces p.pieces

/-- The path of a list of components. -/
def ofComponents : List Component → FilePath
  | root :: rest => ⟨⟨[slash]⟩ ++ OsString.join (rest.map Component.written)⟩
  | steps => ⟨OsString.join (steps.map Component.written)⟩

/-- Whether a path starts at the top of the file system. -/
def isAbsolute (p : FilePath) : Bool := p.bytes.head? = some slash

/-- A path seen from a directory. An absolute path stays as it is; otherwise the paths are put one
after the other, with a slash between them unless the directory is empty or ends in one. -/
def join (dir : FilePath) (p : FilePath) : FilePath :=
  if p.isAbsolute then p
  else if dir.bytes = [] ∨ dir.bytes.getLast? = some slash then ⟨dir.toOsString ++ p.toOsString⟩
  else ⟨dir.toOsString ++ ⟨[slash]⟩ ++ p.toOsString⟩

/-- An entry of a directory. -/
def child (dir : FilePath) (entry : OsString) : FilePath := dir.join ⟨entry⟩

/-- The order of paths: by components, a path before everything below it. -/
def componentsBefore : List Component → List Component → Bool
  | _, [] => false
  | [], _ :: _ => true
  | a :: as, b :: bs => a.before b || (a == b && componentsBefore as bs)

/-- The order of paths in listings. -/
def before (p q : FilePath) : Bool := componentsBefore p.components q.components

/-- The name of the entry that a path denotes, if it ends in one. -/
def fileName? (p : FilePath) : Option OsString :=
  match p.components.getLast? with
  | some (name s) => some s
  | _ => none

/-- What follows the last dot of a name; a name has no extension if its only dot is its first
byte. -/
def extensionOf? (entry : OsString) : Option OsString :=
  let tail := entry.bytes.reverse.takeWhile (· ≠ dot)
  if entry.bytes.length ≤ tail.length + 1 then none else some ⟨tail.reverse⟩

/-- The extension of the entry that a path denotes, if it is a text. -/
def extension? (p : FilePath) : Option String :=
  (p.fileName?.bind extensionOf?).bind OsString.text?

/-- Whether a piece between slashes stands for no component when it is not the first. -/
def isIdle (piece : List UInt8) : Bool := piece = [] ∨ piece = [dot]

/-- The pieces of a path without those at its end that stand for no component. The first piece is
the start of the path and always stays. -/
def trimPieces : List (List UInt8) → List (List UInt8)
  | [] => []
  | first :: rest => first :: (rest.reverse.dropWhile isIdle).reverse

/-- The directory that holds the entry a path denotes, as written. The top of the file system and
the empty path have none. -/
def parent? (p : FilePath) : Option FilePath :=
  match trimPieces p.pieces with
  | [] | [[]] => none
  | [_] => some ⟨⟨[]⟩⟩
  | pieces =>
    match trimPieces pieces.dropLast with
    | [[]] => some ⟨⟨[slash]⟩⟩
    | kept => some ⟨⟨[slash].intercalate kept⟩⟩

/-- The components of a path below a directory, if it lies at or below it. -/
def below? (dir p : FilePath) : Option (List Component) :=
  dir.components.isPrefixOf? p.components

end FilePath

end RemoteImports
