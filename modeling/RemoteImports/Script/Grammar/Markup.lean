import RemoteImports.Script.Grammar.Class

/-!
# Markup

Elements with tags inside a script. Tags need not match: a closing tag may name anything or nothing.
-/

namespace RemoteImports.Script

open Reader

namespace Grammar

/-- A name in markup: a word that may go on with hyphens. -/
def markupName (g : Grammar) : Reader Unit := do
  let _ ← g.word
  let _ ← takeWhile fun c => isWordPart c || c == '-'

/-- The name of a tag: names between dots, or two around a colon. -/
def tagName (g : Grammar) : Reader Unit := do
  g.markupName
  (do
    g.skipClosed
    char ':'
    g.skip
    g.markupName) <|> (do
    let _ ← many (do g.skipClosed; char '.'; g.skip; g.word) g.limit)

/-- A character given by its name or number. -/
def characterReference : Reader Unit := do
  char '&'
  firstOf [
    do
      char '#'
      char 'x' <|> char 'X'
      let found ← takeWhile1 isHexDigit
      require (found.length ≤ 6),
    do
      char '#'
      let found ← takeWhile1 Char.isDigit
      require (found.length ≤ 5),
    do
      let found ← takeWhile1 Char.isAlpha
      require (found.length ≤ 30)]
  char ';'

/-- The value of an attribute between quotes. -/
def attributeText (g : Grammar) (quote : Char) : Reader Unit := do
  char quote
  let _ ← many (firstOf [
    do let _ ← takeWhile1 fun c => c != quote && c != '&',
    characterReference,
    do
      char '&'
      let _ ← satisfy fun c => !(c == '#' || c.isAlpha)]) g.limit
  char quote

/-- An expression inside markup. -/
def markupExpression (g : Grammar) : Reader Unit := do
  char '\x7b'
  maybe (do
    g.skip
    text "..."
    let _ ← g.valueOf .inside)
  maybe (do let _ ← g.expressions .inside)
  g.sign "\x7d"

/-- An attribute of a tag. -/
def tagAttribute (g : Grammar) : Reader Unit :=
  g.markupExpression <|> (do
    g.tagName
    maybe do
      g.skipClosed
      char '='
      g.skip
      firstOf [g.attributeText '"', g.attributeText '\'', g.markupExpression, g.markup])

/-- What stands between an opening and a closing tag. -/
def markupChild (g : Grammar) : Reader Unit :=
  firstOf [
    do let _ ← takeWhile1 fun c => !("<>&\x7b\x7d".toList.contains c),
    characterReference,
    g.markup,
    g.markupExpression]

/-- The children of an element and its closing tag. -/
def markupRest (g : Grammar) : Reader Unit := do
  let _ ← many g.markupChild g.limit
  text "</"
  g.skip
  maybe (do g.tagName; g.skip)
  char '>'

/-- An element. -/
def markupRule (g : Grammar) : Reader Unit := do
  char '<'
  unlessSees (char '/')
  g.skip
  (do char '>'; g.markupRest) <|> (do
    g.tagName
    if g.typed then maybe (do g.skip; g.typeArguments)
    let _ ← many (do g.skip; g.tagAttribute) g.limit
    g.skip
    text "/>" <|> (do char '>'; g.markupRest))

end Grammar

end RemoteImports.Script
