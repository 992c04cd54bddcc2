import RemoteImports.Import.Rewrite
import RemoteImports.Text.JsonValue

/-!
# Check reports

The result of checking the files of a project: what would be rewritten in each file, which files
failed and why, and the totals. A report is written as text for people or as a JSON document. The
document leaves out the rewrites of a file that has none, and the error of a file that has none. It
cannot be written if one of its paths is no text.
-/

namespace RemoteImports

/-- What a check found out about a file. -/
inductive FileStatus
  | unchanged
  | rewritten
  | failed
  deriving DecidableEq, Inhabited, Repr

/-- The name of a status. -/
def FileStatus.label : FileStatus → String
  | unchanged => "unchanged"
  | rewritten => "rewritten"
  | failed => "failed"

/-- A rewrite as a report shows it. -/
structure RewriteSummary where
  line : Nat
  specifier : String
  filename : String
  methods : List String
  deriving DecidableEq, Inhabited, Repr

/-- What a report shows of a rewrite. -/
def Rewrite.summary (r : Rewrite) : RewriteSummary :=
  ⟨r.site.line, r.site.specifier, r.proxy.filename, r.proxy.methods⟩

/-- The result for one file. -/
structure FileResult where
  /-- The path as the report shows it. -/
  path : FilePath
  status : FileStatus
  rewrites : List RewriteSummary
  error : Option String
  deriving DecidableEq, Inhabited, Repr

/-- The result of a check. -/
structure CheckReport where
  root : FilePath
  backendRoot : FilePath
  filesChecked : Nat
  filesRewritten : Nat
  filesFailed : Nat
  /-- The files that hold no text. -/
  filesSkipped : Nat
  importsRewritten : Nat
  elapsedMs : Nat
  files : List FileResult
  deriving DecidableEq, Inhabited, Repr

/-! ## The report as a document -/

/-- A rewrite as a document. -/
def RewriteSummary.toJson (r : RewriteSummary) : JsonValue :=
  .object [("line", .nat r.line), ("specifier", .text r.specifier), ("filename", .text r.filename),
    ("methods", .texts r.methods)]

/-- The result for a file as a document. -/
def FileResult.toJson (file : FileResult) : JsonValue :=
  .object <|
    [("path", .ofOsString file.path.toOsString), ("status", .text file.status.label)] ++
    (if file.rewrites = [] then []
      else [("rewrites", .array (file.rewrites.map RewriteSummary.toJson))]) ++
    file.error.toList.map fun message => ("error", .text message)

namespace CheckReport

/-- A report as a document. -/
def toJson (report : CheckReport) : JsonValue :=
  .object
    [("metadata", .object
      [("root", .ofOsString report.root.toOsString),
        ("backend_root", .ofOsString report.backendRoot.toOsString),
        ("files_checked", .nat report.filesChecked),
        ("files_rewritten", .nat report.filesRewritten),
        ("files_failed", .nat report.filesFailed), ("files_skipped", .nat report.filesSkipped),
        ("imports_rewritten", .nat report.importsRewritten),
        ("elapsed_ms", .nat report.elapsedMs)]),
      ("files", .array (report.files.map FileResult.toJson))]

/-! ## The report as text -/

/-- Lines, each ended. -/
def lines (texts : List String) : String := String.join (texts.map (· ++ "\n"))

/-- The head of a report: the places and the totals. -/
def headLines (report : CheckReport) : List String :=
  ["Expose Check Report", "===================", "", "Root:       " ++ report.root.text,
    "Backend:    " ++ report.backendRoot.text,
    "Checked:    " ++ toString report.filesChecked ++ " files",
    "Rewritten:  " ++ toString report.filesRewritten ++ " files (" ++
      toString report.importsRewritten ++ " imports)",
    "Failed:     " ++ toString report.filesFailed ++ " files",
    "Skipped:    " ++ toString report.filesSkipped ++ " files"]

/-- The line for a rewrite in a file. -/
def rewriteLine (file : FileResult) (r : RewriteSummary) : String :=
  "  " ++ file.path.text ++ ":" ++ toString r.line ++ "  " ++ r.specifier ++ " -> " ++ r.filename ++
    " [" ++ ", ".intercalate r.methods ++ "]"

/-- The line for a file that failed. -/
def errorLine (file : FileResult) : String :=
  "  " ++ file.path.text ++ ": " ++ file.error.getD "unknown error"

/-- The files of a report with a status. -/
def withStatus (report : CheckReport) (status : FileStatus) : List FileResult :=
  report.files.filter (·.status = status)

/-- A section of a report, if it is about any file. -/
def sectionLines (title underline : String) (files : List FileResult)
    (linesOf : FileResult → List String) : List String :=
  if files = [] then [] else "" :: title :: underline :: files.flatMap linesOf

/-- A report as text. -/
def toText (report : CheckReport) : String :=
  lines <|
    report.headLines ++
    sectionLines "Rewrites" "--------" (report.withStatus .rewritten)
      (fun file => file.rewrites.map (rewriteLine file)) ++
    sectionLines "Errors" "------" (report.withStatus .failed) fun file => [errorLine file]

end CheckReport

end RemoteImports
