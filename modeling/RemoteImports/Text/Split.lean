import RemoteImports.Text.Letters

/-!
# Cutting text

Texts are cut at commas and at the ends of lines, and trimmed of blanks.
-/

namespace RemoteImports.Text

/-- The parts of a text between commas. -/
def commaParts (text : String) : List String :=
  (text.toList.splitOn ',').map String.ofList

/-- A text without the blanks at its ends. -/
def trimChars (text : List Char) : List Char :=
  ((text.dropWhile isBlank).reverse.dropWhile isBlank).reverse

/-- A text without the blanks at its ends. -/
def trim (text : String) : String := String.ofList (trimChars text.toList)

/-- The lines of a text: a line feed ends a line, and a carriage return before it belongs to it.
A text that ends in a line feed has no further empty line. -/
def lines (text : List Char) : List (List Char) :=
  let pieces := text.splitOn '\n'
  let pieces := if pieces.getLast? = some [] then pieces.dropLast else pieces
  pieces.map fun piece => if piece.getLast? = some '\r' then piece.dropLast else piece

/-- ASCII capitals made small; every other character is kept. -/
def lowercase (text : String) : String := String.ofList (text.toList.map Char.toLower)

end RemoteImports.Text
