import RemoteImports.Command.Arguments
import RemoteImports.Config.Resolve

/-!
# Commands

What the tool can be asked to do, and the reading of a request from the words of a command line. A
request for help is no request: the tool answers it as it answers words that it cannot read.
-/

namespace RemoteImports

/-- What the tool can be asked to do. -/
inductive Command
  /-- Rewrite one file and print or write the result. -/
  | transform (file : FilePath) (flags : Overrides) (output : Option FilePath)
  /-- Check a file, or the files of a directory. -/
  | check (target : Option FilePath) (flags : Overrides)
  /-- List the exposed functions of a file. -/
  | exposed (file : FilePath) (flags : Overrides)
  /-- Show the configuration that holds in a directory. -/
  | showConfig (directory : Option FilePath) (changedOnly : Bool)
  deriving DecidableEq, Inhabited, Repr

/-- What a command line asks for. -/
inductive Request
  | version
  | run (command : Command)
  deriving DecidableEq, Inhabited, Repr

/-! ## Values -/

/-- The path that a word names; the empty word names none. -/
def FilePath.ofWord? (word : String) : Option FilePath := if word = "" then none else some ⟨word⟩

namespace Arguments

/-- The value of an option that takes one, if every value is good. -/
def valueOf? {α : Type} (given : Arguments) (name : String) (read : String → Option α) :
    Option (Option α) :=
  match given.values name with
  | [] => some Option.none
  | word :: _ => (read word).map some

/-- The path given for an option. -/
def path? (given : Arguments) (name : String) : Option (Option FilePath) :=
  given.valueOf? name FilePath.ofWord?

/-- The output format given for an option. -/
def format? (given : Arguments) : Option (Option OutputFormat) :=
  given.valueOf? "format" OutputFormat.ofName?

/-- The only positional word, as a path. -/
def onlyPath? (given : Arguments) : Option FilePath :=
  match given.positional with
  | [word] => FilePath.ofWord? word
  | _ => Option.none

/-- The positional word, if there is any, as a path. -/
def anyPath? (given : Arguments) : Option (Option FilePath) :=
  match given.positional with
  | [] => some Option.none
  | _ => given.onlyPath?.map some

end Arguments

/-! ## Commands by name -/

namespace Command

/-- The option for the root of the project. -/
def rootOption : OptionRule := ⟨"root", .single, none⟩

/-- The option for the backend directory. -/
def backendOption : OptionRule := ⟨"backend-dir", .single, none⟩

/-- The option for the output format. -/
def formatOption : OptionRule := ⟨"format", .single, none⟩

/-- The command `transform`. -/
def readTransform? (words : List String) : Option Command := do
  let given ← Arguments.read? [rootOption, backendOption, ⟨"output", .single, some 'o'⟩] words
  let file ← given.onlyPath?
  let root ← given.path? "root"
  let backend ← given.path? "backend-dir"
  let output ← given.path? "output"
  some (transform file { root, backend } output)

/-- The command `check`. -/
def readCheck? (words : List String) : Option Command := do
  let given ← Arguments.read?
    [rootOption, backendOption, formatOption, ⟨"include", .repeated, none⟩,
      ⟨"exclude", .repeated, none⟩, ⟨"quiet", .flag, none⟩] words
  let target ← given.anyPath?
  let root ← given.path? "root"
  let backend ← given.path? "backend-dir"
  let format ← given.format?
  some <| check target
    { root, backend, format
      quiet := given.has "quiet"
      includes := given.values "include"
      excludes := given.values "exclude" }

/-- The command `exposed`. -/
def readExposed? (words : List String) : Option Command := do
  let given ← Arguments.read? [formatOption] words
  let file ← given.onlyPath?
  let format ← given.format?
  some (exposed file { format })

/-- The command `config show`. -/
def readShowConfig? (words : List String) : Option Command := do
  let given ← Arguments.read? [⟨"path", .single, none⟩, ⟨"changed", .flag, none⟩] words
  let directory ← given.path? "path"
  if given.positional = [] then some (showConfig directory (given.has "changed")) else none

/-- The command that some words ask for. -/
def ofWords? : List String → Option Command
  | "transform" :: words => readTransform? words
  | "check" :: words => readCheck? words
  | "exposed" :: words => readExposed? words
  | "config" :: "show" :: words => readShowConfig? words
  | _ => none

end Command

namespace Request

/-- Whether a word asks for the version: the letters after the first one are never looked at. -/
def asksVersion (word : String) : Bool :=
  word = "--version" || ['-', 'V'].isPrefixOf word.toList

/-- What the words of a command line ask for. -/
def ofWords? (words : List String) : Option Request :=
  if words.head?.any asksVersion then some version else (Command.ofWords? words).map run

end Request

end RemoteImports
