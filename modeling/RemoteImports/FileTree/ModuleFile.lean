import RemoteImports.FileTree.Access

/-!
# Module files

The file that an import means: the path as it is, else the path with an extension after it, else an
index file in the directory under the path. Extensions are tried in the order of their list.
-/

namespace RemoteImports

/-- A path with an extension written after it. -/
def FilePath.withExtension (p : FilePath) (extension : String) : FilePath :=
  ⟨p.toOsString ++ "." ++ extension⟩

/-- The index file of a directory that has an extension. -/
def FilePath.indexFile (dir : FilePath) (extension : String) : FilePath :=
  dir.child ("index." ++ extension)

/-- The file that an import of a path means. -/
def FileTree.moduleFile? (tree : FileTree) (target : FilePath) (extensions : List String) :
    Option FilePath :=
  if tree.isFile target then some target
  else
    match (extensions.map target.withExtension).find? tree.isFile with
    | some file => some file
    | none =>
      if tree.isDirectory target then (extensions.map target.indexFile).find? tree.isFile
      else none

end RemoteImports
