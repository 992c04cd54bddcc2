import RemoteImports.Config
import RemoteImports.Config.File
import RemoteImports.FileTree.Access

/-!
# Resolving a configuration

The layers of a configuration, each over the one before: what is built in, the file of the user, the
file of the project, the environment, and the flags of the command line. The project file is the one
in the nearest directory at or above the working directory; that directory is the root of the
project unless a later layer says otherwise.
-/

namespace RemoteImports

/-- The variables of the environment; the first value of a name counts. A value need not be a text.
Names that are no texts are left out, since no run looks at them. -/
abbrev Environment := List (String × OsString)

instance : Coe (List (String × String)) Environment := ⟨List.map fun e => (e.1, e.2)⟩

/-- The value of a variable that is defined and a text. -/
def Environment.text? (env : Environment) (name : String) : Option String :=
  (env.lookup name).bind OsString.text?

/-- The settings given by flags. -/
structure Overrides where
  format : Option OutputFormat := none
  quiet : Bool := false
  root : Option FilePath := none
  backend : Option FilePath := none
  includes : List String := []
  excludes : List String := []
  deriving DecidableEq, Inhabited, Repr

namespace Config

/-! ## Parts of settings -/

/-- An output format by its name, small or capital. -/
def formatOf (name : String) : Except ConfigFault OutputFormat :=
  match OutputFormat.ofName? (Text.lowercase name) with
  | some format => .ok format
  | none => .error (.unknownFormat name)

/-- Extensions without the blanks around them and the dots in front; empty ones are left out. -/
def cleanExtensions (extensions : List String) : List String :=
  (extensions.map fun e => String.ofList ((Text.trimChars e.toList).dropWhile (· = '.'))).filter
    (· ≠ "")

/-- Whether the value of a variable switches something on. -/
def isOn (value : String) : Bool := value = "1" || Text.lowercase value = "true"

/-- The members of a list in a variable: the parts between commas without the blanks around them,
empty ones left out. -/
def listMembers (value : String) : List String :=
  ((Text.commaParts value).map Text.trim).filter (· ≠ "")

/-! ## Layers -/

/-- A configuration in which a setting has a source. -/
def noted (config : Config) (key : String) (source : Source) : Config :=
  { config with provenance := config.provenance.set key source }

/-- The keys of all settings. -/
def keys : List String :=
  ["defaults.format", "defaults.quiet", "project.root", "project.backend_dir",
    "resolve.extensions", "targeting.include", "targeting.exclude"]

/-- The configuration that is built in, for a working directory. -/
def builtIn (working : FilePath) : Config where
  format := .text
  quiet := false
  root := working
  backend := defaultBackend
  extensions := Dialect.defaultExtensions
  includes := []
  excludes := []
  provenance := keys.foldl (fun p key => p.set key .builtIn) .empty
  loadedFiles := []

/-- A configuration with a setting from a layer, if the layer has it. -/
def withSetting {α : Type} (config : Config) (key : String) (source : Source) (value : Option α)
    (set : Config → α → Config) : Config :=
  match value with
  | some value => (set config value).noted key source
  | none => config

/-- A list of a layer, if it is not empty. -/
def nonempty? (texts : List String) : Option (List String) :=
  if texts = [] then none else some texts

/-- An output format of a layer, if it has one. -/
def formatOf? : Option String → Except ConfigFault (Option OutputFormat)
  | none => .ok none
  | some name => (formatOf name).map some

/-- A configuration with the settings of a file on top. The root is seen from the directory of the
file. -/
def withFile (config : Config) (s : FileSettings) (file : FilePath) (source : Source) :
    Except ConfigFault Config := do
  let format ← formatOf? s.format
  let directory := file.parent?.getD ⟨"."⟩
  let config := config.withSetting "defaults.format" source format
    fun config format => { config with format }
  let config := config.withSetting "defaults.quiet" source s.quiet
    fun config quiet => { config with quiet }
  let config := config.withSetting "project.root" source s.root
    fun config root => { config with root := directory.join ⟨root⟩ }
  let config := config.withSetting "project.backend_dir" source s.backend
    fun config backend => { config with backend := ⟨backend⟩ }
  let config := config.withSetting "resolve.extensions" source s.extensions
    fun config extensions => { config with extensions := cleanExtensions extensions }
  let config := config.withSetting "targeting.include" source (nonempty? s.includes)
    fun config includes => { config with includes }
  .ok <| config.withSetting "targeting.exclude" source (nonempty? s.excludes)
    fun config excludes => { config with excludes }

/-- A configuration with the settings of the environment on top. A variable whose value is no text
counts as not defined. The root is seen from the working directory. -/
def withEnvironment (config : Config) (working : FilePath) (env : Environment) :
    Except ConfigFault Config := do
  let value (name : String) : Option String := env.text? name
  let format ← formatOf? (value "EXPOSER_FORMAT")
  let config := config.withSetting "defaults.format" (.environment "EXPOSER_FORMAT") format
    fun config format => { config with format }
  let config := config.withSetting "defaults.quiet" (.environment "EXPOSER_QUIET")
    (value "EXPOSER_QUIET") fun config text => { config with quiet := isOn text }
  let config := config.withSetting "project.root" (.environment "EXPOSER_ROOT")
    (value "EXPOSER_ROOT") fun config root => { config with root := working.join ⟨root⟩ }
  let config := config.withSetting "project.backend_dir" (.environment "EXPOSER_BACKEND_DIR")
    (value "EXPOSER_BACKEND_DIR") fun config backend => { config with backend := ⟨backend⟩ }
  let config := config.withSetting "resolve.extensions" (.environment "EXPOSER_EXTENSIONS")
    (value "EXPOSER_EXTENSIONS")
    fun config text => { config with extensions := cleanExtensions (listMembers text) }
  let config := config.withSetting "targeting.include" (.environment "EXPOSER_INCLUDE")
    (value "EXPOSER_INCLUDE") fun config text => { config with includes := listMembers text }
  .ok <| config.withSetting "targeting.exclude" (.environment "EXPOSER_EXCLUDE")
    (value "EXPOSER_EXCLUDE") fun config text => { config with excludes := listMembers text }

/-- A configuration with the settings of the flags on top. -/
def withOverrides (config : Config) (flags : Overrides) : Config :=
  let config := config.withSetting "defaults.format" (.flag "--format") flags.format
    fun config format => { config with format }
  let config := config.withSetting "defaults.quiet" (.flag "--quiet")
    (if flags.quiet then some true else none) fun config quiet => { config with quiet }
  let config := config.withSetting "project.root" (.flag "--root") flags.root
    fun config root => { config with root }
  let config := config.withSetting "project.backend_dir" (.flag "--backend-dir") flags.backend
    fun config backend => { config with backend }
  let config := config.withSetting "targeting.include" (.flag "--include")
    (nonempty? flags.includes) fun config includes => { config with includes }
  config.withSetting "targeting.exclude" (.flag "--exclude") (nonempty? flags.excludes)
    fun config excludes => { config with excludes }

/-! ## Configuration files -/

/-- The name of the configuration file of a project. -/
def projectFileName : OsString := ".exposer.toml"

/-- The home directory that the environment names, else that of the user's account. -/
def home? (tree : FileTree) (env : Environment) : Option FilePath :=
  match env.lookup "HOME" with
  | none | some ⟨[]⟩ => tree.accountHome
  | some home => some ⟨home⟩

/-- The directory of the user's configuration files. -/
def userDirectory? (tree : FileTree) (env : Environment) : Option FilePath :=
  match env.lookup "XDG_CONFIG_HOME" with
  | some directory =>
    if FilePath.isAbsolute ⟨directory⟩ then some ⟨directory⟩
    else (home? tree env).map (·.child ".config")
  | none => (home? tree env).map (·.child ".config")

/-- The configuration file of the user, if there is one. -/
def userFile? (tree : FileTree) (env : Environment) : Option FilePath :=
  ((userDirectory? tree env).map fun dir => (dir.child "exposer").child "config.toml").filter
    tree.contains

/-- A directory and those above it, as many as a bound allows. -/
def directoriesWithin : Nat → FilePath → List FilePath
  | 0, dir => [dir]
  | bound + 1, dir =>
    match dir.parent? with
    | none => [dir]
    | some parent => dir :: directoriesWithin bound parent

/-- A directory and those above it, nearest first. -/
def directoriesAbove (dir : FilePath) : List FilePath :=
  directoriesWithin (dir.components.length + 1) dir

/-- The configuration file of the project that a directory belongs to, if there is one. -/
def projectFile? (tree : FileTree) (working : FilePath) : Option FilePath :=
  ((directoriesAbove working).map (·.child projectFileName)).find? tree.contains

/-- The settings of a configuration file. -/
def readFile (tree : FileTree) (layer : ConfigLayer) (file : FilePath) :
    Except ConfigFault FileSettings :=
  match tree.read file with
  | .error _ => .error (.unreadable layer file)
  | .ok text =>
    (FileSettings.parse text).mapError fun fault => .invalid layer (fault.message text.toList)

/-- A configuration with a file among those it was read from. -/
def withLoaded (config : Config) (file : FilePath) : Config :=
  { config with loadedFiles := config.loadedFiles ++ [file] }

/-- A configuration with the user's file on top, if there is one. -/
def withUserFile (config : Config) (tree : FileTree) (env : Environment) :
    Except ConfigFault Config :=
  match userFile? tree env with
  | none => .ok config
  | some file => do
    let config ← config.withFile (← readFile tree .user file) file (.userConfig file)
    .ok (config.withLoaded file)

/-- A configuration with the project's file on top, if there is one. -/
def withProjectFile (config : Config) (tree : FileTree) (working : FilePath) :
    Except ConfigFault Config :=
  match projectFile? tree working with
  | none => .ok config
  | some file => do
    let s ← readFile tree .project file
    let source := Source.projectConfig file
    let config := config.withSetting "project.root" source file.parent?
      fun config root => { config with root }
    let config ← config.withFile s file source
    .ok (config.withLoaded file)

/-- The configuration for a working directory. -/
def resolve (tree : FileTree) (env : Environment) (working : FilePath) (flags : Overrides) :
    Except ConfigFault Config := do
  let config ← (builtIn working).withUserFile tree env
  let config ← config.withProjectFile tree working
  let config ← config.withEnvironment working env
  .ok (config.withOverrides flags)

end Config

end RemoteImports
