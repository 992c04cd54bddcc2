import RemoteImports.Script.Reader
import RemoteImports.Text.Letters

/-!
# Lexemes

The smallest pieces of a script: layout and comments, words, strings, numbers and regular
expressions. A word is a name or a keyword; which of the two is for the place where it stands to
say.
-/

namespace RemoteImports.Script

open Reader

/-! ## Layout -/

/-- Whether a character is layout between tokens. -/
def isLayout (c : Char) : Bool :=
  Text.isBlank c || c.toNat == 0xFEFF || c.toNat == 0x2060 || c.toNat == 0x200B

/-- Whether a character ends a comment that runs to the end of the line. -/
def endsLineComment (c : Char) : Bool :=
  c == '\n' || c == '\r' || c.toNat == 0x2028 || c.toNat == 0x2029

/-- The length of a block comment after its opening, if it is closed. -/
def blockLength? : List Char → Option Nat
  | [] => none
  | '*' :: '/' :: _ => some 2
  | _ :: rest => (blockLength? rest).map (· + 1)

/-- The rest of a block comment after its opening. -/
def blockRest : Reader Unit := do
  match blockLength? (← ahead) with
  | some n => skip n
  | none => failure

/-- A comment. -/
def comment : Reader Node := do
  let start ← here
  (do text "//"; let _ ← takeWhile (fun c => !endsLineComment c)) <|> (do text "/*"; blockRest)
  pure (.leaf .comment start (← here))

/-- A comment in the manner of the surrounding markup, up to the end of the line. -/
def markupComment : Reader Node := do
  let start ← here
  text "<!--" <|> text "-->"
  let _ ← takeWhile fun c => !(c == '\n' || c.toNat == 0x2028 || c.toNat == 0x2029)
  pure (.leaf .other start (← here))

/-- Blanks. -/
def blanks : Reader Unit := do
  let _ ← takeWhile isLayout

/-- Blanks and comments; gives the comments. -/
def layoutWith (note : Reader Node) (limit : Nat) : Reader (List Node) := do
  blanks
  many (do let node ← note; blanks; pure node) limit

/-- Layout where an operator may come next. -/
def layout (limit : Nat) : Reader (List Node) := layoutWith comment limit

/-- Layout where no operator can come next, so that the signs of markup comments are free. -/
def openLayout (limit : Nat) : Reader (List Node) := layoutWith (comment <|> markupComment) limit

/-! ## Words -/

/-- Whether a character can occur in a word. -/
def isWordPart (c : Char) : Bool :=
  !(c.toNat < 0x20 || isLayout c || ":;\x60\"'@#.,|^&<=>+-*/\\%?!~()[]\x7b\x7d".toList.contains c)

/-- Whether a character can start a word. -/
def isWordStart (c : Char) : Bool := isWordPart c && !c.isDigit

/-- Whether a character is a hexadecimal digit. -/
def isHexDigit (c : Char) : Bool :=
  c.isDigit || ('a' ≤ c && c ≤ 'f') || ('A' ≤ c && c ≤ 'F')

/-- Four hexadecimal digits, or any number of them in braces. -/
def codePoint : Reader Unit :=
  (do
    char '{'
    let _ ← takeWhile1 isHexDigit
    char '}') <|>
  (do
    for _ in [0, 1, 2, 3] do
      let _ ← satisfy isHexDigit)

/-- An escaped character of a word. -/
def wordEscape : Reader Unit := do
  text "\\u"
  codePoint

/-- The text that a reader takes. -/
def taken {α : Type} (r : Reader α) : Reader (List Char) := do
  let start ← here
  let text ← ahead
  let _ ← r
  pure (text.take ((← here) - start))

/-- A word, as written. -/
def word (limit : Nat) : Reader String := do
  let chars ← taken do
    wordEscape <|> (do let _ ← satisfy isWordStart)
    many (wordEscape <|> (do let _ ← takeWhile1 isWordPart)) limit
  pure (String.ofList chars)

/-! ## Literals -/

/-- An escape sequence in a string or a template. -/
def escapeSequence : Reader Unit := do
  char '\\'
  firstOf [
    text "\r\n",
    do char 'u'; codePoint,
    do
      char 'x'
      let _ ← satisfy isHexDigit
      let _ ← satisfy isHexDigit,
    do let _ ← takeWhile1 fun c => '0' ≤ c && c ≤ '7',
    do let _ ← satisfy fun c => !(c == 'x' || c == 'u' || ('0' ≤ c && c ≤ '7'))]

/-- A string between the given quotes. Before the closing quote there may be a line end with layout
after it, which is no part of the text. -/
def stringIn (quote : Char) (limit : Nat) : Reader Unit := do
  char quote
  let _ ← many (escapeSequence <|> do
    let _ ← takeWhile1 fun c => !(c == quote || c == '\\' || c == '\r' || c == '\n')) limit
  let _ ← layout limit
  char quote

/-- A string literal. -/
def stringLiteral (limit : Nat) : Reader Node := do
  let start ← here
  stringIn '"' limit <|> stringIn '\'' limit
  pure (.leaf .string start (← here))

/-- Digits of a class, with single underscores between them. -/
def digits (cls : Char → Bool) (limit : Nat) : Reader Unit := do
  let _ ← satisfy cls
  let _ ← many (do maybe (char '_'); satisfy cls) limit

/-- The reader among several that takes most. -/
def longestOf : List (Reader Unit) → Reader Unit
  | [] => failure
  | r :: rest => fun c =>
    match r c with
    | .error reach => longestOf rest (c.reaching reach)
    | .ok (_, a) =>
      match longestOf rest c with
      | .error _ => .ok ((), a)
      | .ok (_, b) => .ok ((), if a.offset < b.offset then b else a)

/-- A number literal. -/
def number (limit : Nat) : Reader Unit :=
  let decimal := digits Char.isDigit limit
  let based (low high : Char) (cls : Char → Bool) : Reader Unit := do
    char '0'
    char low <|> char high
    digits cls limit
  let hexadecimal := based 'x' 'X' isHexDigit
  let binary := based 'b' 'B' fun c => c == '0' || c == '1'
  let octal := based 'o' 'O' fun c => '0' ≤ c && c ≤ '7'
  let exponent : Reader Unit := do
    char 'e' <|> char 'E'
    maybe (char '+' <|> char '-')
    decimal
  let whole : Reader Unit := longestOf [
    char '0',
    do
      maybe (char '0')
      let _ ← satisfy fun c => '1' ≤ c && c ≤ '9'
      maybe (do maybe (char '_'); decimal)]
  longestOf [
    hexadecimal, binary, octal, decimal,
    do longestOf [hexadecimal, binary, octal, decimal]; char 'n',
    do whole; char '.'; maybe decimal; maybe exponent,
    do char '.'; decimal; maybe exponent,
    do whole; exponent]

/-- A regular expression literal. -/
def regularExpression (limit : Nat) : Reader Unit := do
  char '/'
  let escaped : Reader Unit := do
    char '\\'
    let _ ← satisfy (· != '\n')
  let bracketed : Reader Unit := do
    char '['
    let _ ← many (escaped <|> do
      let _ ← takeWhile1 fun c => !(c == ']' || c == '\n' || c == '\\')) limit
    char ']'
  let plain : Reader Unit := do
    let _ ← takeWhile1 fun c => !(c == '/' || c == '\\' || c == '[' || c == '\n')
  let parts ← many (firstOf [bracketed, escaped, plain]) limit
  require (!parts.isEmpty)
  char '/'
  let _ ← takeWhile fun c => 'a' ≤ c && c ≤ 'z'

end RemoteImports.Script
