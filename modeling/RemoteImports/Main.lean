import RemoteImports.Command.Run

/-!
# The command line

The program itself: it takes a picture of the files that a command can look at, lets the command run
on the picture, prints what it prints, and writes the output file if the command has one. All
decisions are made by `Request.outcome`. The host hands over names, variables and words that are
texts, and no account.
-/

namespace RemoteImports.Main

/-- The names of the variables that a run looks at. -/
def variableNames : List String :=
  ["EXPOSER_FORMAT", "EXPOSER_QUIET", "EXPOSER_ROOT", "EXPOSER_BACKEND_DIR", "EXPOSER_EXTENSIONS",
    "EXPOSER_INCLUDE", "EXPOSER_EXCLUDE", "XDG_CONFIG_HOME", "HOME"]

/-- The variables of the process. -/
def environment : IO Environment :=
  variableNames.filterMapM fun name => do
    pure ((← IO.getEnv name).map (name, ·))

/-- The place of an absolute path without dots and links. -/
def placeOf (path : String) : Location :=
  ((path.splitOn "/").filter (· ≠ "")).map OsString.ofText

/-- Whether there is something under a path, links followed. -/
def isThere (path : String) : IO Bool := do ((← IO.currentDir) / path).pathExists

/-- What stands under a path, with everything below it. A link that leads nowhere is kept as a link
to itself; dependency directories are left empty. -/
partial def load (path : String) : IO Entry := do
  if !(← isThere path) then pure (.link ⟨path⟩)
  else
    let real ← IO.FS.realPath path
    if real.toString ≠ path then pure (.link ⟨real.toString⟩)
    else if ← real.isDir then
      if real.fileName = some "node_modules" then pure (.directory [])
      else
        pure (.directory (← (← real.readDir).toList.mapM fun e => do
          pure (e.fileName, ← load e.path.toString)))
    else pure (.file (.ofBytes (← IO.FS.readBinFile path)))

/-- A tree with what stands under a path, if there is anything. -/
def withPath (tree : FileTree) (path : String) : IO FileTree := do
  if ← isThere path then
    let real := (← IO.FS.realPath path).toString
    pure (tree.put (placeOf real) (← load real))
  else pure tree

/-- A tree with the store of a repository at a path, if there is one; what is in it stays out. -/
def withStore (tree : FileTree) (path : String) : IO FileTree := do
  if ← isThere path then
    let real ← IO.FS.realPath path
    let entry ← if ← real.isDir then pure (.directory []) else load real.toString
    pure (tree.put (placeOf real.toString) entry)
  else pure tree

/-- The places of stores at a directory or above it. -/
def storesAbove (dir : FilePath) : List String :=
  (Config.directoriesAbove dir).flatMap fun above =>
    IgnoreLevel.storeNames.map fun name => (above.child name).text

/-- The files above a directory that can matter to a run in it. -/
def filesAbove (dir : FilePath) : List String :=
  (Config.directoriesAbove dir).flatMap fun above =>
    [".exposer.toml", ".ignore", ".gitignore", ".git/info/exclude"].map fun name : String =>
      (above.child name).text

/-- The paths that a command line can name: the words, and what follows an equals sign in them. -/
def pathsIn (words : List String) : List String :=
  words.flatMap fun word => word :: (word.splitOn "=").tail

/-- The directories whose files a run can read: the working directory, the root of its project, and
what the command line and the environment name. -/
def startingDirectories (working : FilePath) (words : List String) (env : Environment) :
    List String :=
  let named := pathsIn words ++ (env.text? "EXPOSER_ROOT").toList
  working.text :: named.flatMap fun word : String =>
    let path := working.join ⟨word⟩
    path.text :: (path.parent?.map FilePath.text).toList

/-- The picture of the files that a run can look at. -/
def picture (words : List String) (env : Environment) : IO FileTree := do
  let working : FilePath := ⟨(← IO.FS.realPath (← IO.currentDir)).toString⟩
  let home := (Config.home? .empty env).getD ⟨"/"⟩
  let names := [".config/exposer/config.toml", ".config/git/ignore", ".gitconfig"]
  let settings := names.map fun name : String => (home.child name).text
  let mut tree : FileTree := { FileTree.empty with working := placeOf working.text }
  for path in storesAbove working do
    tree ← withStore tree path
  for path in filesAbove working ++ settings do
    tree ← withPath tree path
  let root := (Config.projectFile? tree working).bind FilePath.parent?
  let starts := (root.map FilePath.text).toList ++ startingDirectories working words env
  for path in starts.eraseDups do
    tree ← withPath tree path
  pure tree

/-- Writes the output file of a command that has one. -/
def writeOutput (request : Request) (tree : FileTree) : IO Unit := do
  match request with
  | .run (.transform _ _ (some out)) =>
    match tree.read out with
    | .ok text => IO.FS.writeFile out.text text
    | .error _ => pure ()
  | _ => pure ()

/-- Runs a request: prints what it prints and gives the exit code. -/
def perform (request : Request) (words : List String) : IO UInt32 := do
  let env ← environment
  let done := request.outcome (← picture words env) env
  IO.print done.printed
  match done.failure with
  | some failure =>
    IO.eprintln failure.message
    pure 1
  | none =>
    writeOutput request done.tree
    pure 0

end RemoteImports.Main

/-- The program. -/
def main (words : List String) : IO UInt32 := do
  match RemoteImports.Request.ofWords? words with
  | some request => RemoteImports.Main.perform request words
  | none =>
    IO.eprintln "usage: exposer <transform|check|exposed|config show> ..."
    pure 2
