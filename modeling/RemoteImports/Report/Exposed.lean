import RemoteImports.FilePath
import RemoteImports.Text.JsonValue

/-!
# Listings of exposed functions

The exposed functions of one backend file, one name a line or as a JSON document.
-/

namespace RemoteImports

/-- The exposed functions of a file. -/
structure ExposedReport where
  /-- The file as it was asked for. -/
  file : FilePath
  functions : List String
  deriving DecidableEq, Inhabited, Repr

namespace ExposedReport

/-- A listing as a document. -/
def toJson (report : ExposedReport) : JsonValue :=
  .object [("file", .ofOsString report.file.toOsString), ("functions", .texts report.functions)]

/-- A listing as text. -/
def toText (report : ExposedReport) : String :=
  if report.functions = [] then report.file.text ++ ": no exposed functions\n"
  else String.join (report.functions.map (· ++ "\n"))

end ExposedReport

end RemoteImports
