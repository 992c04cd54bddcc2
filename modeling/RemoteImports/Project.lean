import RemoteImports.FileTree.ModuleFile
import RemoteImports.Import.Rewrite
import RemoteImports.Module.Exposed
import RemoteImports.Module.Parse

/-!
# Projects

A project knows its root, its backend directory and the extensions of its modules. For a module of
the project, `plan` finds the imports from the backend and checks each against the file it leads to;
`rewriteInPlace` rewrites the module when all of them pass, `transform` does so for a source text.
-/

namespace RemoteImports

/-- What the rewriting of a module depends on besides the files. -/
structure Project where
  root : FilePath
  /-- The directory whose functions are called through proxies. -/
  backendRoot : FilePath
  /-- The extensions that an import may leave out, in the order in which they are tried. -/
  extensions : List String
  deriving DecidableEq, Inhabited, Repr

/-- The backend directory of a project that does not name one. -/
def defaultBackend : FilePath := ⟨"backend"⟩

/-- A source text after its rewrites. -/
structure Transformed where
  code : String
  rewrites : List Rewrite
  deriving DecidableEq, Inhabited, Repr

/-- Work on a module in place. A failure leaves the module as the work up to there made it. -/
abbrev InPlace (α : Type) : Type := ExceptT Failure (StateM Module) α

namespace Project

/-- The project at a root with a backend directory seen from there. -/
def ofRoot (root backend : FilePath) (extensions : List String) : Project :=
  let root := root.normalize
  ⟨root, (root.join backend).normalize, extensions⟩

/-- A path of the project as an absolute one. -/
def absolute (project : Project) (p : FilePath) : FilePath :=
  if p.isAbsolute then p.normalize else (project.root.join p).normalize

/-- Whether a file belongs to the backend. -/
def isBackendFile (project : Project) (p : FilePath) : Bool :=
  (project.backendRoot.relativeTo (project.absolute p)).isSome

/-- What the tool says when an import leads to no file. -/
def noModule (target : FilePath) (extensions : List String) : String :=
  "no module found at " ++ target.text ++ " (tried extensions: " ++
    ", ".intercalate extensions ++ ")"

/-- The functions that the module at a path exposes, read afresh from its file. The specifier that
led there is named when the file cannot be read. -/
def exposedAt (tree : FileTree) (target : FilePath) (specifier : String)
    (requested : Option (List String)) (extensions : List String) : Except Failure (List String) :=
  match tree.moduleFile? target extensions with
  | none => .error (.unreadableImport specifier target (noModule target extensions))
  | some file =>
    match tree.read file with
    | .error fault => .error (.unreadableImport specifier target fault.message)
    | .ok source => do (← Module.parse file source).exposed requested

/-- The imports of a module that lead into the backend. -/
def backendImports (project : Project) (m : Module) : List BackendImport :=
  BackendImport.among (project.absolute m.path) project.backendRoot 0 m.statements

/-- The rewrite of an import, checked against the file that it leads to. -/
def rewriteOf (project : Project) (tree : FileTree) (site : BackendImport) :
    Except Failure Rewrite := do
  site.rewrite
    (← exposedAt tree site.target site.specifier (some site.requested) project.extensions)

/-- The rewrites of some imports; the first that fails decides. -/
def rewritesOf (project : Project) (tree : FileTree) :
    List BackendImport → Except Failure (List Rewrite)
  | [] => .ok []
  | site :: rest => do
    let r ← project.rewriteOf tree site
    let rs ← rewritesOf project tree rest
    .ok (r :: rs)

/-- The rewrites of a module. -/
def plan (project : Project) (tree : FileTree) (m : Module) : Except Failure (List Rewrite) :=
  project.rewritesOf tree (project.backendImports m)

/-- Rewrites a module in place. All of its imports are checked before the first edit. -/
def rewriteInPlace (project : Project) (tree : FileTree) : InPlace (List Rewrite) := do
  let rewrites ← liftExcept (project.plan tree (← get))
  modify fun m => (m.rewrite? rewrites).getD m
  return rewrites

/-- The module after its rewrites, and the rewrites. -/
def apply (project : Project) (tree : FileTree) (m : Module) :
    Except Failure (Module × List Rewrite) :=
  match (project.rewriteInPlace tree).run.run m with
  | (.ok rewrites, m) => .ok (m, rewrites)
  | (.error failure, _) => .error failure

/-- The source text of a file after its rewrites. -/
def transform (project : Project) (tree : FileTree) (p : FilePath) (source : String) :
    Except Failure Transformed := do
  let (m, rewrites) ← project.apply tree (← Module.parse p source)
  .ok ⟨if rewrites = [] then source else m.source, rewrites⟩

end Project

end RemoteImports
