import RemoteImports.Script.Grammar.Signature

/-!
# Types

The types of the typed dialects. Only their extent matters here, so unions, intersections and
conditional types are read from left to right without regard to how tightly they bind.
-/

namespace RemoteImports.Script

open Reader

namespace Grammar

/-- A type between two tokens of the same construct. -/
def typeInside (g : Grammar) : Reader Unit := g.type .inside

/-- A function type, given what stands before its parameters. -/
def functionType (g : Grammar) (ending : Ending) : Reader Unit := do
  maybe (do g.typeParameters; g.skip)
  g.parameters
  let _ ← g.gap ending
  text "=>"
  g.resultType ending

/-- The type of a constructor. -/
def constructorType (g : Grammar) (ending : Ending) : Reader Unit := do
  maybe (do g.keyword "abstract"; g.skip)
  g.keyword "new"
  g.skip
  maybe (do g.typeParameters; g.skip)
  g.parameters
  let _ ← g.gap ending
  text "=>"
  g.type ending

/-- The element of a tuple. -/
def tupleItem (g : Grammar) : Reader Unit := do
  maybe (do text "..."; g.skip)
  let labelled : Reader Unit := do
    let _ ← g.word
    g.skipClosed
    maybe (do char '?'; g.skipClosed)
    g.annotation .inside
  labelled <|> (do
    g.typeInside
    maybe (do g.skipClosed; char '?'))

/-- The signature of a computed or mapped property: square brackets around a name with the type it
ranges over. -/
def indexSignature (g : Grammar) (ending : Ending) : Reader Unit := do
  maybe do
    maybe (do char '+' <|> char '-'; g.skip)
    g.keyword "readonly"
    let _ ← g.gap .plain
  char '['
  g.skip
  let _ ← g.word
  g.skipClosed
  g.annotation .inside <|> (do
    g.keyword "in"
    g.typeInside
    maybe (do g.skipClosed; g.keyword "as"; g.typeInside))
  g.sign "]"
  g.skipClosed
  firstOf [text "-?", text "+?", text "?", pure ()]
  g.annotation ending

/-- The words that modify a member of an object type or a class. -/
def memberModifiers : List String :=
  ["public", "private", "protected", "static", "override", "readonly", "declare", "abstract",
    "accessor"]

/-- The name of a method or a property with the words before it and the question mark after it. -/
def memberHead (g : Grammar) : Reader Unit := do
  let _ ← g.modifiers memberModifiers fun c => startsName c || c == '*'
  let _ ← g.modifiers ["async"] fun c => startsName c || c == '*'
  maybe (do char '*'; g.skip)
  let _ ← g.modifiers ["get", "set"] startsName
  let _ ← g.propertyName

/-- A member of an object type. -/
def typeMember (g : Grammar) : Reader Unit :=
  firstOf [
    g.indexSignature .plain,
    do
      maybe (do g.keyword "abstract"; g.skip)
      g.keyword "new"
      g.skip
      maybe (do g.typeParameters; g.skip)
      g.parameters
      maybe (do let _ ← g.gap .plain; g.annotation .plain),
    g.signature .plain,
    do
      g.memberHead
      maybe (do let _ ← g.gap .plain; char '?')
      maybe do
        let _ ← g.gap .plain
        g.annotation .plain <|> g.signature .plain]

/-- The members of an object type between its braces. -/
def typeBody (g : Grammar) : Reader Unit := do
  char '\x7b'
  maybe (char '|')
  maybe (do g.skip; char ',' <|> char ';')
  let _ ← many (do
    g.skip
    g.typeMember
    (do g.skipClosed; char ',') <|> (do let _ ← g.semicolon false) <|> (do
      g.skipClosed
      require ((← peek) == some '\x7d' || (← peek) == some '|'))) g.limit
  g.skip
  maybe (char '|')
  char '\x7d'

/-- The type of a value: the name of the value, its properties, and calls. -/
def typeQuery (g : Grammar) : Reader Unit := do
  g.keyword "typeof"
  g.skip
  let _ ← g.word
  let _ ← many (do
    g.skipClosed
    firstOf [
      do
        text "?." <|> char '.'
        g.skip
        g.privateName <|> (do let _ ← g.word),
      g.arguments,
      g.typeArguments]) g.limit

/-- The type of an imported module or of one of its names. -/
def importType (g : Grammar) : Reader Unit := do
  g.keyword "import"
  let _ ← many (do
    g.skipClosed
    g.arguments <|> (do
      text "?." <|> char '.'
      g.skip
      g.privateName <|> (do let _ ← g.word))) g.limit

/-- A type made by filling types into a text. -/
def templateType (g : Grammar) : Reader Unit := do
  char '\u0060'
  let _ ← many (firstOf [
    do
      text "$\x7b"
      g.typeInside
      g.sign "\x7d",
    escapeSequence,
    do let _ ← satisfy fun c => c != '\u0060' && c != '\\' && c != '$',
    do char '$'; require ((← peek) != some '\x7b')]) g.limit
  char '\u0060'

/-- A type that stands for itself, to which brackets can be added. -/
def primaryType (g : Grammar) : Reader Unit :=
  firstOf [
    g.typeQuery,
    do
      g.keyword "unique"
      g.skip
      g.keyword "symbol",
    do
      g.dottedName
      maybe (do g.skipClosed; g.typeArguments),
    do let _ ← stringLiteral g.limit,
    do
      maybe (do char '-' <|> char '+'; g.skip)
      number g.limit,
    g.templateType,
    g.typeBody,
    do
      char '['
      let _ ← g.items g.tupleItem ']',
    do
      char '('
      g.typeInside
      g.sign ")",
    char '*',
    do
      char '?'
      g.skip
      g.typeInside]

/-- Brackets after a type: an array of it, or one of its properties. -/
def typeBrackets (g : Grammar) (ending : Ending) : Reader Unit := do
  let _ ← many (do
    let _ ← g.gap ending
    char '['
    g.skip
    char ']' <|> (do g.typeInside; g.sign "]")) g.limit

/-- What can go on with a type: another member of a union or an intersection, or a condition. -/
def typeRest (g : Grammar) (ending : Ending) : Reader Unit := do
  let _ ← g.gap ending
  firstOf [
    do
      char '|'
      require ((← peek) != some '|')
      g.type ending,
    do
      char '&'
      require ((← peek) != some '&')
      g.type ending,
    do
      g.keyword "extends"
      g.typeInside
      g.sign "?"
      g.typeInside
      g.sign ":"
      g.type ending]

/-- A type. -/
def typeRule (g : Grammar) (ending : Ending) : Reader Unit := do
  g.skip
  firstOf [
    do
      char '|' <|> char '&'
      g.type ending,
    g.functionType ending,
    g.constructorType ending,
    do
      g.keyword "readonly" <|> g.keyword "keyof"
      let _ ← g.gap ending
      g.type ending,
    do
      g.keyword "infer"
      g.skip
      let _ ← g.word
      maybe do
        let _ ← g.gap ending
        g.keyword "extends"
        g.typeInside
        unlessSees do g.skipClosed; char '?'
      maybe (g.typeRest ending),
    do
      require (← g.seesWord "import")
      g.importType
      maybe (g.typeRest ending),
    do
      g.primaryType
      g.typeBrackets ending
      maybe (g.typeRest ending)]

end Grammar

end RemoteImports.Script
