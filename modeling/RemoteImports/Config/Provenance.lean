import RemoteImports.FilePath

/-!
# Where settings come from

Every setting has a dotted key, `section.name`, and a layer that its value comes from. The sources
of all settings are kept in the order of the keys; the latest source of a key counts.
-/

namespace RemoteImports

/-- The layer that a setting comes from. -/
inductive Source
  /-- The setting is built in. -/
  | builtIn
  | userConfig (file : FilePath)
  | projectConfig (file : FilePath)
  /-- A variable of the environment. -/
  | environment (name : String)
  | flag (name : String)
  deriving DecidableEq, Inhabited, Repr

namespace Source

/-- Whether a setting is built in. -/
def isBuiltIn : Source → Bool
  | builtIn => true
  | _ => false

/-- The description of a source. -/
def text : Source → String
  | builtIn => "default"
  | userConfig file => "user config (" ++ file.text ++ ")"
  | projectConfig file => "project config (" ++ file.text ++ ")"
  | environment name => "env var (" ++ name ++ ")"
  | flag name => "CLI flag (" ++ name ++ ")"

end Source

/-- The sources of some settings. -/
structure Provenance where
  /-- The sources in the order of their keys. -/
  entries : List (String × Source)
  deriving DecidableEq, Inhabited, Repr

namespace Provenance

/-- No source is known. -/
def empty : Provenance := ⟨[]⟩

/-- Entries in the order of their keys with the source of one key set. -/
def setEntry (key : String) (source : Source) : List (String × Source) → List (String × Source)
  | [] => [(key, source)]
  | (other, s) :: rest =>
    if key < other then (key, source) :: (other, s) :: rest
    else if key = other then (key, source) :: rest
    else (other, s) :: setEntry key source rest

/-- The sources with the one of a key set. -/
def set (p : Provenance) (key : String) (source : Source) : Provenance :=
  ⟨setEntry key source p.entries⟩

/-- The source of a key. -/
def get? (p : Provenance) (key : String) : Option Source := p.entries.lookup key

/-- The section of a key: the part before the first dot. -/
def sectionOf (key : String) : String := String.ofList (key.toList.takeWhile (· ≠ '.'))

/-- A list without the members that repeat the one before. -/
def withoutRuns : List String → List String
  | a :: b :: rest => if a = b then withoutRuns (b :: rest) else a :: withoutRuns (b :: rest)
  | names => names

/-- The sections of the keys, in the order of the keys. Neighbours of one section are joined. -/
def sections (p : Provenance) : List String := withoutRuns (p.entries.map fun e => sectionOf e.1)

/-- The entries of a section. -/
def sectionEntries (p : Provenance) (name : String) : List (String × Source) :=
  p.entries.filter fun e => sectionOf e.1 = name

/-- The entries that are not built in. -/
def overridden (p : Provenance) : List (String × Source) :=
  p.entries.filter fun e => !e.2.isBuiltIn

end Provenance

end RemoteImports
