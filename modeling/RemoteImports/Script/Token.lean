import RemoteImports.Script.Lexeme

/-!
# Tokens

The cutting of a text that breaks the grammar into tokens. `Token.ofText` takes any text: where no
token of the language starts, one character is a token of its own. A string that is not closed on
its line is one token up to the end of the line; the pieces of a template are tokens of their own.
-/

namespace RemoteImports.Script

open Reader

/-- A token of a text. -/
structure Token where
  /-- The blanks and comments before it. -/
  gap : List Char
  text : List Char
  /-- The offset of its first character. -/
  start : Nat
  deriving DecidableEq, Inhabited, Repr

namespace Token

/-- The offset after the last character. -/
def stop (t : Token) : Nat := t.start + t.text.length

/-- Whether a token is the given text. -/
def is (t : Token) (text : String) : Bool := t.text = text.toList

/-- Whether a token is one of some texts. -/
def isAny (t : Token) (texts : List String) : Bool := texts.any t.is

/-- Whether a token is a word. -/
def isWord (t : Token) : Bool := t.text.head?.any fun c => isWordStart c || c == '\\'

/-- Whether a line ends before a token, after the token before it. -/
def startsLine (t : Token) : Bool := t.gap.contains '\n'

/-- A token with nothing of its layout left but whether a line ends before it. -/
def loosened (t : Token) (line : Bool) : Token := { t with gap := if line then ['\n'] else [' '] }

/-! ## Cutting -/

/-- The signs of more than one character, longer ones first. -/
def longSigns : List String :=
  [">>>=", "...", "===", "!==", "**=", "<<=", ">>=", ">>>", "&&=", "||=", "??=", "=>", "==", "!=",
    "<=", ">=", "&&", "||", "??", "?.", "++", "--", "+=", "-=", "*=", "/=", "%=", "&=", "|=", "^=",
    "<<", ">>", "**"]

/-- The words after which an operand comes. -/
def leadingWords : List String :=
  ["return", "typeof", "instanceof", "in", "of", "new", "delete", "void", "throw", "case", "do",
    "else", "yield", "await"]

/-- Whether a text ends an operand, so that a slash after it divides. -/
def endsOperand (text : List Char) : Bool :=
  text.getLast?.any (fun c => isWordPart c || ")]\x7d\"'\u0060".toList.contains c) &&
    !leadingWords.any (text = ·.toList)

/-- A string that its line does not close. -/
def openString : Reader Unit := do
  let _ ← satisfy fun c => c == '"' || c == '\''
  let _ ← takeWhile (· != '\n')

/-- A token outside of templates. -/
def plainPiece (operand : Bool) (limit : Nat) : Reader Unit :=
  firstOf [
    do let _ ← word limit,
    number limit,
    do let _ ← stringLiteral limit,
    openString,
    do require !operand; regularExpression limit,
    firstOf (longSigns.map Reader.text),
    do let _ ← satisfy fun _ => true]

/-- A piece of a template. -/
def templatePiece : Reader Unit :=
  firstOf [
    do
      let _ ← takeWhile1 fun c => c != '\u0060' && c != '\\' && c != '$'
      require ((← peek) != none),
    escapeSequence,
    Reader.text "$\x7b",
    char '$',
    char '\u0060']

/-- The templates (`true`) and braces (`false`) that are open after a token, innermost first. -/
def openAfter (text : List Char) (inside : List Bool) : List Bool :=
  if text = ['\u0060'] then
    match inside with
    | true :: outer => outer
    | _ => true :: inside
  else if text = ['\x7b'] || text = ['$', '\x7b'] then false :: inside
  else if text = ['\x7d'] then inside.tail
  else inside

/-- The tokens to come, given the templates and braces that are open, and whether an operand came
last. -/
def cut : Nat → List Bool → Bool → Reader (List Token)
  | 0, _, _ => pure []
  | limit + 1, inside, operand => do
    let inTemplate := inside.head? = some true
    let gap ← if inTemplate then pure [] else taken (openLayout limit)
    if ← succeeded atEnd then pure []
    else
      let start ← here
      let piece ← if inTemplate then optional (taken templatePiece) else pure none
      let text ← match piece with
        | some text => pure text
        | none => taken (plainPiece operand limit)
      let inside := if inTemplate && piece.isNone then inside.tail else inside
      let rest ← cut limit (openAfter text inside) (endsOperand text)
      pure (⟨gap, text, start⟩ :: rest)

/-- The tokens of a text. -/
def ofText (source : List Char) : List Token :=
  match cut (source.length + 1) [] false (.start source) with
  | .ok (found, _) => found
  | .error _ => []

end Token

/-- The text of some tokens. -/
def textOf (ts : List Token) : List Char := ts.flatMap fun t => t.gap ++ t.text

end RemoteImports.Script
