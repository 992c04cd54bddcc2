/-!
# Faults of path patterns

Why a text is no pattern, and the message for each cause.
-/

namespace RemoteImports

/-- What is wrong with a pattern. -/
inductive GlobFault
  | unclosedClass
  /-- A range of characters that ends before it starts. -/
  | invalidRange (first last : Char)
  | unopenedGroup
  | unclosedGroup
  /-- A backslash with nothing after it. -/
  | danglingEscape
  deriving DecidableEq, Inhabited, Repr

namespace GlobFault

/-- The description of a fault. -/
def description : GlobFault → String
  | unclosedClass => "unclosed character class; missing ']'"
  | invalidRange first last =>
    "invalid range; '" ++ first.toString ++ "' > '" ++ last.toString ++ "'"
  | unopenedGroup =>
    "unopened alternate group; missing '\x7b' (maybe escape '\x7d' with '[\x7d]'?)"
  | unclosedGroup =>
    "unclosed alternate group; missing '\x7d' (maybe escape '\x7b' with '[\x7b]'?)"
  | danglingEscape => "dangling '\\'"

/-- The message for a fault of a pattern. -/
def message (fault : GlobFault) (pattern : String) : String :=
  "error parsing glob '" ++ pattern ++ "': " ++ fault.description

end GlobFault

end RemoteImports
