import RemoteImports.Config.Fault
import RemoteImports.FileTree.Fault
import RemoteImports.Glob.Fault

/-!
# Failures

Why a run of the tool can fail, and the message for each cause.
-/

namespace RemoteImports

/-- Where and how a source text breaks the grammar. Lines and columns count from one, columns in
bytes. -/
inductive SyntaxFault
  /-- Text that does not belong, by the start of its first line. -/
  | unexpected (text : String) (line column : Nat)
  /-- A token that is not there. -/
  | missing (token : String) (line column : Nat)
  /-- A text that is refused without a place to show for it. -/
  | unplaced
  deriving DecidableEq, Inhabited, Repr

/-- The description of a syntax fault. -/
def SyntaxFault.message : SyntaxFault → String
  | unexpected text line column =>
    "unexpected \x60" ++ text ++ "\x60 at line " ++ toString line ++ ", column " ++ toString column
  | missing token line column =>
    "missing \x60" ++ token ++ "\x60 at line " ++ toString line ++ ", column " ++ toString column
  | unplaced => "syntax error"

/-- Why a run of the tool failed. -/
inductive Failure
  /-- The module that an import names cannot be read. -/
  | unreadableImport (specifier : String) (target : FilePath) (reason : String)
  /-- A source file breaks the grammar. -/
  | parse (file : FilePath) (fault : SyntaxFault)
  /-- A function is marked as exposed, but its module does not export it. -/
  | exposedNotExported (function : String) (file : FilePath)
  /-- An import asks for names that its target does not expose. -/
  | missingExposure (specifier : String) (names : List String)
  /-- A file that the run itself needs cannot be reached, or a document cannot name one. -/
  | access (fault : FileFault)
  /-- There is no configuration. -/
  | config (fault : ConfigFault)
  /-- A text that is meant as a path pattern is none. -/
  | glob (pattern : String) (fault : GlobFault)
  /-- A check finds no file to look at. -/
  | noFiles (path : FilePath)
  /-- A check found files that fail. -/
  | checkFailed (failed total : Nat)
  deriving DecidableEq, Inhabited, Repr

/-- The message for a failure. -/
def Failure.message : Failure → String
  | unreadableImport specifier _ reason => "File " ++ specifier ++ " could not be read: " ++ reason
  | parse file fault => "File " ++ file.text ++ " parse error: " ++ fault.message
  | exposedNotExported function file =>
    function ++ " has @expose annotation but it is not exported from " ++ file.text
  | missingExposure specifier names =>
    "\"" ++ ",".intercalate names ++ "\" is missing from \"" ++ specifier ++
      "\", did you forget to @expose ?"
  | access fault => fault.message
  | glob pattern fault => fault.message pattern
  | config fault => "Configuration error: " ++ fault.message
  | noFiles path => "No source files found in " ++ path.text
  | checkFailed failed total =>
    toString failed ++ " of " ++ toString total ++ " files failed the expose check"

end RemoteImports
