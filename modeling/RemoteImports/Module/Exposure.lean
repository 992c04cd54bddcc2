import RemoteImports.Text.Split

/-!
# The exposure tag

A comment with the tag `@expose` marks a function as callable from outside. The tag has to end where
it ends: `@exposed` is another word.
-/

namespace RemoteImports.Exposure

/-- The tag that marks a function as callable from outside. -/
def tag : List Char := "@expose".toList

/-- Whether a character goes on with a word. -/
def isWordChar (c : Char) : Bool := Text.isLetterOrNumeral c || c == '_' || c == '$'

/-- What follows the tag, if a text starts with it. -/
def afterTag? (text : List Char) : Option (List Char) :=
  if tag.isPrefixOf text then some (text.drop tag.length) else none

/-- Whether the tag stands at the start of a text and ends there. -/
def startsWithTag (text : List Char) : Bool :=
  match afterTag? text with
  | none => false
  | some rest => !rest.head?.any isWordChar

/-- Whether a comment carries the tag. -/
def carriesTag : List Char → Bool
  | [] => false
  | c :: rest => startsWithTag (c :: rest) || carriesTag rest

/-- Whether a comment carries the tag. -/
def marks (comment : String) : Bool := carriesTag comment.toList

end RemoteImports.Exposure
