import RemoteImports.FilePath

/-!
# Dialects

The three dialects that a source file can be written in, and the file extensions that imply them.
-/

namespace RemoteImports

/-- The dialect of a source file. -/
inductive Dialect
  /-- Scripts without types; markup is allowed. -/
  | javaScript
  /-- Scripts with types. -/
  | typeScript
  /-- Scripts with types and markup. -/
  | tsx
  deriving DecidableEq, Inhabited, Repr

namespace Dialect

/-- The dialects, in the order in which extensions are looked up. -/
def all : List Dialect := [javaScript, typeScript, tsx]

/-- The name that a dialect is shown by. -/
def label : Dialect → String
  | javaScript => "javascript"
  | typeScript => "typescript"
  | tsx => "tsx"

/-- The file extensions of a dialect. -/
def extensions : Dialect → List String
  | javaScript => ["js", "mjs", "cjs", "jsx"]
  | typeScript => ["ts", "mts", "cts"]
  | tsx => ["tsx"]

/-- Whether a dialect has type annotations. -/
def hasTypes : Dialect → Bool
  | javaScript => false
  | _ => true

/-- Whether a dialect has markup. -/
def hasMarkup : Dialect → Bool
  | typeScript => false
  | _ => true

/-- The extensions that are tried, in order, when an import leaves the extension out. -/
def defaultExtensions : List String := all.flatMap extensions

/-- The dialect that the extension of a file implies, in any case of letters. -/
def ofPath? (path : FilePath) : Option Dialect :=
  path.extension?.bind fun extension =>
    all.find? fun dialect => dialect.extensions.contains (Text.lowercase extension)

/-- The dialect of a file; a file with another extension is read as plain script. -/
def ofPath (path : FilePath) : Dialect := (ofPath? path).getD javaScript

/-- The dialect of a name, in any case of letters. No letter outside ASCII has a small form that
occurs in one of the names. -/
def ofName? (name : String) : Option Dialect :=
  match Text.lowercase name with
  | "javascript" | "js" => some javaScript
  | "typescript" | "ts" => some typeScript
  | "tsx" => some tsx
  | _ => none

end Dialect

end RemoteImports
