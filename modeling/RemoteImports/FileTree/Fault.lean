/-!
# Faults of file access

Why a path cannot be followed, a file cannot be read or a path cannot be named in a document, and
the message for each cause.
-/

namespace RemoteImports

/-- Why an access to a file failed, or to its path as a text. -/
inductive FileFault
  /-- Nothing stands under the path. -/
  | notFound
  /-- A step of the path leads through something that is no directory. -/
  | notDirectory
  /-- A directory stands where a file is needed. -/
  | isDirectory
  /-- A name is longer than any name can be. -/
  | nameTooLong
  /-- Following the path meets too many symbolic links. -/
  | tooManyLinks
  /-- The path has a null character, which no name has. -/
  | nullCharacter
  /-- The file holds bytes that are no text. -/
  | notText
  /-- The path is no text, and a document cannot name it. -/
  | pathNotText
  deriving DecidableEq, Inhabited, Repr

/-- The message for a fault of file access. -/
def FileFault.message : FileFault → String
  | notFound => "No such file or directory (os error 2)"
  | notDirectory => "Not a directory (os error 20)"
  | isDirectory => "Is a directory (os error 21)"
  | nameTooLong => "File name too long (os error 36)"
  | tooManyLinks => "Too many levels of symbolic links (os error 40)"
  | nullCharacter => "file name contained an unexpected NUL byte"
  | notText => "stream did not contain valid UTF-8"
  | pathNotText => "path contains invalid UTF-8 characters"

end RemoteImports
