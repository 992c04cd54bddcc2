import RemoteImports.Config.Provenance
import RemoteImports.Project

/-!
# Configurations

The settings of a run with the layer that each comes from, and the text that shows them. `toText`
lists the settings section by section; with `changedOnly` those at their built-in value are left
out.
-/

namespace RemoteImports

/-- How a report is written. -/
inductive OutputFormat
  | text
  | json
  deriving DecidableEq, Inhabited, Repr

namespace OutputFormat

/-- The name of a format. -/
def label : OutputFormat → String
  | text => "text"
  | json => "json"

/-- The format with a name. -/
def ofName? (name : String) : Option OutputFormat :=
  if name = "text" then some text else if name = "json" then some json else none

end OutputFormat

/-- The settings of a run. -/
structure Config where
  format : OutputFormat
  quiet : Bool
  root : FilePath
  /-- The backend directory, seen from the root. -/
  backend : FilePath
  extensions : List String
  includes : List String
  excludes : List String
  provenance : Provenance
  /-- The configuration files that were read, in their order. -/
  loadedFiles : List FilePath
  deriving DecidableEq, Inhabited, Repr

namespace Config

/-- The backend directory. -/
def backendRoot (config : Config) : FilePath := config.root.join config.backend

/-- The project that a configuration describes. -/
def project (config : Config) : Project :=
  .ofRoot config.root config.backend config.extensions

/-! ## Showing a configuration -/

/-- Texts in a row, or a word that there are none. -/
def listText (texts : List String) : String :=
  if texts = [] then "(none)" else ", ".intercalate texts

/-- The value of the setting with a key. -/
def valueText (config : Config) (key : String) : String :=
  if key = "defaults.format" then config.format.label
  else if key = "defaults.quiet" then (if config.quiet then "true" else "false")
  else if key = "project.root" then config.root.text
  else if key = "project.backend_dir" then config.backend.text
  else if key = "resolve.extensions" then listText config.extensions
  else if key = "targeting.include" then listText config.includes
  else if key = "targeting.exclude" then listText config.excludes
  else "(unknown)"

/-- The lines for the configuration files, numbered from one more than a number. -/
def fileLines : Nat → List FilePath → List String
  | _, [] => []
  | n, file :: files =>
    ("  " ++ toString (n + 1) ++ ". " ++ file.text) :: fileLines (n + 1) files

/-- The line for a setting. -/
def settingLine (config : Config) (entry : String × Source) : String :=
  "    " ++ entry.1 ++ ": " ++ config.valueText entry.1 ++ " <- " ++ entry.2.text

/-- The entries of a section that are shown. -/
def shownEntries (config : Config) (changedOnly : Bool) (name : String) : List (String × Source) :=
  (config.provenance.sectionEntries name).filter fun e => !changedOnly || !e.2.isBuiltIn

/-- The lines for a section: its name and its settings, if any of them is shown. -/
def sectionLines (config : Config) (changedOnly : Bool) (name : String) : List String :=
  match config.shownEntries changedOnly name with
  | [] => []
  | entries => ("  [" ++ name ++ "]") :: entries.map config.settingLine

/-- The lines that show a configuration. -/
def showLines (config : Config) (changedOnly : Bool) : List String :=
  (if config.loadedFiles = [] then ["Loaded config files: (none)"]
    else "Loaded config files:" :: fileLines 0 config.loadedFiles) ++
  ["", "Resolved settings:"] ++
  config.provenance.sections.flatMap (config.sectionLines changedOnly) ++
  ["", "Backend root: " ++ config.backendRoot.text]

/-- The text that shows a configuration. -/
def toText (config : Config) (changedOnly : Bool) : String :=
  String.join ((config.showLines changedOnly).map (· ++ "\n"))

end Config

end RemoteImports
