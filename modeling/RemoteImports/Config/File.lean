import RemoteImports.Toml.Document

/-!
# Configuration files

The settings that a configuration file may hold, and how they are read from a TOML document. Every
setting may be left out, unknown keys are passed over, and a value of the wrong kind is a fault at
its place. A section may also be written as a list of its settings in their order.
-/

namespace RemoteImports

/-- The settings of a configuration file. -/
structure FileSettings where
  format : Option String := none
  quiet : Option Bool := none
  root : Option String := none
  backend : Option String := none
  extensions : Option (List String) := none
  includes : List String := []
  excludes : List String := []
  deriving DecidableEq, Inhabited, Repr

namespace FileSettings

/-! ## Values -/

/-- The fault of a value of the wrong kind. -/
def wrongKind (span : TomlSpan) (value : TomlValue) (wanted : String) : TomlFault :=
  { span, cause := some (.wrongKind value.shown wanted) }

/-- A value as a text. -/
def textOf (span : TomlSpan) : TomlValue → Except TomlFault String
  | .text s => .ok s
  | value => .error (wrongKind span value "a string")

/-- A value as a truth value. -/
def booleanOf (span : TomlSpan) : TomlValue → Except TomlFault Bool
  | .boolean b => .ok b
  | value => .error (wrongKind span value "a boolean")

/-- The members of a list as texts. -/
def memberTexts : List (TomlSpan × TomlValue) → Except TomlFault (List String)
  | [] => .ok []
  | (span, value) :: rest => do
    let s ← textOf span value
    .ok (s :: (← memberTexts rest))

/-- A value as a list of texts. -/
def textsOf (span : TomlSpan) : TomlValue → Except TomlFault (List String)
  | .array items | .tables items => memberTexts items
  | value => .error (wrongKind span value "a sequence")

/-! ## Sections -/

/-- How a section takes up the value of one of its keys. -/
abbrev Setter := FileSettings → String → TomlSpan → TomlValue → Except TomlFault FileSettings

/-- The settings after the fields of a section. -/
def takeFields (set : Setter) : FileSettings → List TomlField → Except TomlFault FileSettings
  | s, [] => .ok s
  | s, (key, span, value) :: rest => do
    takeFields set (← set s key.name (span.getD key.span) value) rest

/-- The settings after the members of a section that is written as a list. A section may say that
all of its settings are needed then. -/
def takeMembers (set : Setter) (tooShort : Nat → Option TomlFault) :
    Nat → List String → FileSettings → List (TomlSpan × TomlValue) →
      Except TomlFault FileSettings
  | _, [], s, _ => .ok s
  | n, _ :: _, s, [] =>
    match tooShort n with
    | some fault => .error fault
    | none => .ok s
  | n, key :: keys, s, (span, value) :: rest => do
    takeMembers set tooShort (n + 1) keys (← set s key span value) rest

/-- A section of a configuration file. -/
structure Layout where
  /-- What the section is called in messages. -/
  name : String
  keys : List String
  /-- Whether a section that is written as a list needs all of its settings. -/
  complete : Bool
  set : Setter

/-- The settings after a section. -/
def takeSection (layout : Layout) (s : FileSettings) (span : TomlSpan) :
    TomlValue → Except TomlFault FileSettings
  | .table _ fields => takeFields layout.set s fields
  | .array items | .tables items =>
    let wanted := layout.name ++ " with " ++ toString layout.keys.length ++
      (if layout.keys.length = 1 then " element" else " elements")
    takeMembers layout.set
      (fun n =>
        if layout.complete then some { span, cause := some (.tooShort n wanted) } else none)
      0 layout.keys s items
  | value => .error (wrongKind span value layout.name)

/-- The section of the operational settings. -/
def defaultsLayout : Layout where
  name := "struct DefaultsFileConfig"
  keys := ["format", "quiet"]
  complete := true
  set s key span value :=
    if key = "format" then do .ok { s with format := some (← textOf span value) }
    else if key = "quiet" then do .ok { s with quiet := some (← booleanOf span value) }
    else .ok s

/-- The section of the places of a project. -/
def projectLayout : Layout where
  name := "struct ProjectFileConfig"
  keys := ["root", "backend_dir"]
  complete := true
  set s key span value :=
    if key = "root" then do .ok { s with root := some (← textOf span value) }
    else if key = "backend_dir" then do .ok { s with backend := some (← textOf span value) }
    else .ok s

/-- The section about finding modules. -/
def resolveLayout : Layout where
  name := "struct ResolveFileConfig"
  keys := ["extensions"]
  complete := true
  set s key span value :=
    if key = "extensions" then do .ok { s with extensions := some (← textsOf span value) }
    else .ok s

/-- The section about choosing files. -/
def targetingLayout : Layout where
  name := "struct TargetingFileConfig"
  keys := ["include", "exclude"]
  complete := false
  set s key span value :=
    if key = "include" then do .ok { s with includes := ← textsOf span value }
    else if key = "exclude" then do .ok { s with excludes := ← textsOf span value }
    else .ok s

/-- How a file takes up its sections. -/
def setSection : Setter := fun s key span value =>
  if key = "defaults" then takeSection defaultsLayout s span value
  else if key = "project" then takeSection projectLayout s span value
  else if key = "resolve" then takeSection resolveLayout s span value
  else if key = "targeting" then takeSection targetingLayout s span value
  else .ok s

/-- The settings that the text of a configuration file holds. -/
def parse (text : String) : Except TomlFault FileSettings := do
  takeFields setSection {} (← Toml.document text.toList)

end FileSettings

end RemoteImports
