import RemoteImports.Check
import RemoteImports.Command
import RemoteImports.Report.Exposed

/-!
# Running commands

A command reads a file tree and an environment. Its outcome is what it prints, why it failed if it
did, and the tree it leaves behind; only `transform` with an output file changes the tree. A check
prints its report before it fails because of the files that failed. A document is printed up to the
first path that is no text, which is a failure.
-/

namespace RemoteImports

/-- What a command leaves behind. -/
structure Outcome where
  printed : String
  failure : Option Failure
  tree : FileTree
  deriving Inhabited, Repr

namespace Command

/-- The directory that the run starts from, as a path. -/
def here : FilePath := ⟨"."⟩

/-- The canonical form of a path that a run depends on. -/
def startingPath (tree : FileTree) (p : FilePath) : Except Failure FilePath :=
  (tree.canonical p).mapError fun _ => .config (.invalidPath p)

/-- Flags whose root is canonical. -/
def settledFlags (tree : FileTree) (flags : Overrides) : Except Failure Overrides :=
  match flags.root with
  | none => .ok flags
  | some root => do .ok { flags with root := some (← startingPath tree root) }

/-- The configuration for a working directory. -/
def configFor (tree : FileTree) (env : Environment) (working : FilePath) (flags : Overrides) :
    Except Failure Config :=
  (Config.resolve tree env working flags).mapError .config

/-! ## Transform -/

/-- The source text of a file after its rewrites. -/
def transformedCode (tree : FileTree) (env : Environment) (file : FilePath) (flags : Overrides) :
    Except Failure String := do
  let file ← startingPath tree file
  let working ← startingPath tree here
  let config ← configFor tree env working (← settledFlags tree flags)
  let source ← (tree.read file).mapError .access
  .ok (← config.project.transform tree file source).code

/-- What `transform` prints, and the tree that it leaves behind. -/
def runTransform (tree : FileTree) (env : Environment) (file : FilePath) (flags : Overrides)
    (output : Option FilePath) : Except Failure (String × FileTree) := do
  let code ← transformedCode tree env file flags
  match output with
  | none => .ok (code, tree)
  | some out => .ok ("", ← (tree.write out code).mapError .access)

/-! ## Check -/

/-- The directory in which the configuration for a path is looked for. -/
def configDirectory (tree : FileTree) (p : FilePath) : FilePath :=
  if tree.isDirectory p then p else p.parent?.getD here

/-- The files that a check looks at. -/
def filesToCheck (tree : FileTree) (env : Environment) (config : Config) (path : FilePath) :
    Except Failure (List FilePath) := do
  let selection ← FileSelection.ofPatterns config.extensions config.includes config.excludes
  let files := (tree.discover env path selection).filter fun file =>
    !config.project.isBackendFile file
  if files = [] then .error (.noFiles path) else .ok files

/-- The report of a check, and the format it is printed in. -/
def checkReport (tree : FileTree) (env : Environment) (target : Option FilePath)
    (flags : Overrides) : Except Failure (OutputFormat × CheckReport) := do
  let requested := target.getD here
  let path ← (tree.canonical requested).mapError fun _ => .noFiles requested
  let flags ← settledFlags tree flags
  let config ← configFor tree env (configDirectory tree path) flags
  let root ← startingPath tree config.root
  let files ← filesToCheck tree env config path
  .ok (config.format, .ofFiles config.project tree root files)

/-- A report in a format. -/
def printCheck (format : OutputFormat) (report : CheckReport) : Written :=
  match format with
  | .json => report.toJson.written
  | .text => report.toText

/-- Why a check fails after its report, if it does. -/
def checkFailure? (report : CheckReport) : Option Failure :=
  if report.filesFailed = 0 then none
  else some (.checkFailed report.filesFailed report.filesChecked)

/-! ## Exposed -/

/-- What `exposed` prints. -/
def runExposed (tree : FileTree) (env : Environment) (file : FilePath) (flags : Overrides) :
    Except Failure Written := do
  let working ← startingPath tree here
  let config ← configFor tree env working flags
  let functions ← Project.exposedAt tree (working.join file) file.text none config.extensions
  let report : ExposedReport := ⟨file, functions⟩
  match config.format with
  | .json => .ok report.toJson.written
  | .text => .ok report.toText

/-! ## Config -/

/-- What `config show` prints. -/
def runShowConfig (tree : FileTree) (env : Environment) (directory : Option FilePath)
    (changedOnly : Bool) : Except Failure Written := do
  let working ← startingPath tree (directory.getD here)
  .ok ((← configFor tree env working {}).toText changedOnly)

/-! ## All commands -/

/-- Why printing failed, if it did. -/
def printFailure? (printed : Written) : Option Failure :=
  if printed.complete then none else some (.access .pathNotText)

/-- The outcome of a command that prints or fails. -/
def outcomeOf (tree : FileTree) : Except Failure Written → Outcome
  | .ok printed => ⟨printed.text, printFailure? printed, tree⟩
  | .error failure => ⟨"", some failure, tree⟩

/-- The outcome of a command. -/
def outcome (tree : FileTree) (env : Environment) : Command → Outcome
  | transform file flags output =>
    match runTransform tree env file flags output with
    | .ok (printed, tree) => ⟨printed, none, tree⟩
    | .error failure => ⟨"", some failure, tree⟩
  | check target flags =>
    match checkReport tree env target flags with
    | .ok (format, report) =>
      let printed := printCheck format report
      ⟨printed.text, (printFailure? printed).or (checkFailure? report), tree⟩
    | .error failure => ⟨"", some failure, tree⟩
  | exposed file flags => outcomeOf tree (runExposed tree env file flags)
  | showConfig directory changedOnly =>
    outcomeOf tree (runShowConfig tree env directory changedOnly)

end Command

namespace Request

/-- The version of the tool. -/
def versionLine : String := "exposer 0.1.0\n"

/-- The outcome of a request. -/
def outcome (tree : FileTree) (env : Environment) : Request → Outcome
  | version => ⟨versionLine, none, tree⟩
  | run command => command.outcome tree env

end Request

end RemoteImports
