import RemoteImports.FilePath

/-!
# Faults of a configuration

Why no configuration can be made, and the message for each cause.
-/

namespace RemoteImports

/-- A kind of configuration file. -/
inductive ConfigLayer
  /-- The file of the person who runs the tool. -/
  | user
  /-- The file of the project. -/
  | project
  deriving DecidableEq, Inhabited, Repr

/-- The name of a kind of configuration file. -/
def ConfigLayer.label : ConfigLayer → String
  | user => "user"
  | project => "project"

/-- Why there is no configuration. -/
inductive ConfigFault
  /-- A configuration file is there but cannot be read. -/
  | unreadable (layer : ConfigLayer) (file : FilePath)
  /-- A configuration file breaks the rules of its format; the details say where. -/
  | invalid (layer : ConfigLayer) (details : String)
  /-- An output format that does not exist is asked for. -/
  | unknownFormat (name : String)
  /-- A path that the run starts from leads nowhere. -/
  | invalidPath (p : FilePath)
  deriving DecidableEq, Inhabited, Repr

namespace ConfigFault

/-- What is wrong, without the details of an invalid file. -/
def outline : ConfigFault → String
  | unreadable layer file => "Could not read " ++ layer.label ++ " config: " ++ file.text
  | invalid layer _ => "Invalid " ++ layer.label ++ " config"
  | unknownFormat name => "Unknown output format: " ++ name
  | invalidPath p => "Invalid path: " ++ p.text

/-- What is wrong. -/
def message : ConfigFault → String
  | invalid layer details => outline (invalid layer details) ++ ": " ++ details
  | fault => fault.outline

end ConfigFault

end RemoteImports
