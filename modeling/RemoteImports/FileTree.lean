import RemoteImports.FilePath

/-!
# File trees

The files that a run of the tool can see: a tree of directories with text files, binary files and
symbolic links, and the directory that relative paths start from. Names are texts of the operating
system, so any bytes. A place in the tree is the list of names that leads to it from the top;
`Entry.at?` looks it up, `Entry.put` sets it, `Entry.without` clears it.
-/

namespace RemoteImports

/-- What a file holds. -/
inductive Content
  | text (text : String)
  /-- Bytes that are no text. -/
  | binary (bytes : List UInt8)
  deriving DecidableEq, Inhabited, Repr

/-- The content made of some bytes: a text if they are one. -/
def Content.ofBytes (bytes : ByteArray) : Content :=
  match String.fromUTF8? bytes with
  | some decoded => .text decoded
  | none => .binary bytes.toList

/-- What stands under a name. -/
inductive Entry
  | file (content : Content)
  | directory (entries : List (OsString × Entry))
  /-- A symbolic link; a relative target is seen from the directory that holds the link. -/
  | link (target : FilePath)
  deriving Inhabited, Repr

/-- A place in a tree: the names that lead to it from the top. -/
abbrev Location := List OsString

namespace Entry

/-- The entries of a directory; nothing else has any. -/
def entries : Entry → List (OsString × Entry)
  | directory entries => entries
  | _ => []

/-- The entry at a place below an entry. -/
def at? : Location → Entry → Option Entry
  | [], e => some e
  | name :: rest, e => (e.entries.lookup name).bind (at? rest)

/-- Whether an entry is a directory. -/
def isDirectory : Entry → Bool
  | directory _ => true
  | _ => false

/-- A list of entries with one of them set. -/
def setEntry (name : OsString) (new : Entry) : List (OsString × Entry) → List (OsString × Entry)
  | [] => [(name, new)]
  | (other, e) :: rest =>
    if other = name then (name, new) :: rest else (other, e) :: setEntry name new rest

/-- The entry with another one put at a place below it. Directories on the way are made. -/
def put : Location → Entry → Entry → Entry
  | [], new, _ => new
  | name :: rest, new, e =>
    directory (setEntry name (put rest new ((e.entries.lookup name).getD (directory []))) e.entries)

/-- The entry without what is at a place below it. -/
def without : Location → Entry → Entry
  | [], e => e
  | [name], e => directory (e.entries.filter (·.1 ≠ name))
  | name :: rest@(_ :: _), e =>
    match e.entries.lookup name with
    | none => e
    | some inner => directory (setEntry name (without rest inner) e.entries)

end Entry

/-- The files that a run can see, and what the system knows of the user who runs it. -/
structure FileTree where
  /-- The directory at the top. -/
  top : Entry
  /-- The place that relative paths start from. -/
  working : Location
  /-- The home directory of the user's account, unless it is empty. -/
  accountHome : Option FilePath := none
  deriving Inhabited, Repr

/-- The absolute path of a place. -/
def Location.path (place : Location) : FilePath := ⟨⟨[OsString.slash]⟩ ++ OsString.join place⟩

namespace FileTree

/-- The tree with nothing but an empty directory at the top. -/
def empty : FileTree := { top := .directory [], working := [] }

/-- The entry at a place. -/
def at? (tree : FileTree) (place : Location) : Option Entry := Entry.at? place tree.top

/-- The tree with an entry put at a place. -/
def put (tree : FileTree) (place : Location) (new : Entry) : FileTree :=
  { tree with top := Entry.put place new tree.top }

/-- The tree with a directory at a place, unless there is an entry already. -/
def makeDirectory (tree : FileTree) (place : Location) : FileTree :=
  if (tree.at? place).isSome then tree else tree.put place (.directory [])

/-- The tree without what is at a place. -/
def without (tree : FileTree) (place : Location) : FileTree :=
  { tree with top := Entry.without place tree.top }

/-- The directory that relative paths start from. -/
def workingDirectory (tree : FileTree) : FilePath := Location.path tree.working

end FileTree

end RemoteImports
