import RemoteImports.Discovery
import RemoteImports.Project
import RemoteImports.Report.Check

/-!
# Checking files

A check plans the rewrites of each file and writes nothing. `Project.check` gives the result for one
file, `CheckReport.ofFiles` the report on many: a file that holds no text is counted as skipped, all
others have a result, in the order of the files.
-/

namespace RemoteImports

/-- The result for a file, from the plan of its rewrites. -/
def FileResult.ofPlan (shown : FilePath) : Except Failure (List Rewrite) → FileResult
  | .ok [] => ⟨shown, .unchanged, [], none⟩
  | .ok rewrites => ⟨shown, .rewritten, rewrites.map Rewrite.summary, none⟩
  | .error failure => ⟨shown, .failed, [], some failure.message⟩

/-- A path as a report shows it: below a directory if it lies there, else as it is. -/
def FilePath.shownFrom (dir p : FilePath) : FilePath :=
  match dir.below? p with
  | some steps => .ofComponents steps
  | none => p

namespace Project

/-- The plan for a source text. -/
def planSource (project : Project) (tree : FileTree) (p : FilePath) (source : String) :
    Except Failure (List Rewrite) := do
  project.plan tree (← Module.parse p source)

/-- The result of checking a file with a source text, shown as seen from a directory. -/
def check (project : Project) (tree : FileTree) (dir p : FilePath) (source : String) :
    FileResult :=
  .ofPlan (dir.shownFrom p) (project.planSource tree p source)

end Project

namespace CheckReport

/-- The number of results with a status. -/
def countOf (results : List FileResult) (status : FileStatus) : Nat :=
  results.countP (·.status = status)

/-- The number of imports that some results rewrite. -/
def importsIn : List FileResult → Nat
  | [] => 0
  | result :: rest => result.rewrites.length + importsIn rest

/-- The report on some results and a number of skipped files. -/
def ofResults (project : Project) (results : List FileResult) (skipped : Nat) : CheckReport where
  root := project.root
  backendRoot := project.backendRoot
  filesChecked := results.length
  filesRewritten := countOf results .rewritten
  filesFailed := countOf results .failed
  filesSkipped := skipped
  importsRewritten := importsIn results
  elapsedMs := 0
  files := results

/-- The results for those files that hold text. -/
def resultsFor (project : Project) (tree : FileTree) (dir : FilePath) (files : List FilePath) :
    List FileResult :=
  files.filterMap fun file =>
    match tree.read file with
    | .ok source => some (project.check tree dir file source)
    | .error _ => none

/-- The report on some files, shown as seen from a directory. -/
def ofFiles (project : Project) (tree : FileTree) (dir : FilePath) (files : List FilePath) :
    CheckReport :=
  let results := resultsFor project tree dir files
  ofResults project results (files.length - results.length)

end CheckReport

end RemoteImports
