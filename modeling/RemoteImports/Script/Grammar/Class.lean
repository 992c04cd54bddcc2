import RemoteImports.Script.Grammar.Type

/-!
# Functions and classes

Functions from the word that begins them to the end of the body, and classes with their members.
-/

namespace RemoteImports.Script

open Reader

namespace Grammar

/-- The words that begin a function, up to the place of its name. -/
def functionHead (g : Grammar) : Reader Unit := do
  maybe do
    g.keyword "async"
    g.skip
  g.keyword "function"
  g.skip
  maybe do
    char '*'
    g.skip

/-- The signature and the body of a function. -/
def functionRest (g : Grammar) : Reader Unit := do
  g.skip
  g.signature .inside
  g.skip
  g.block

/-- A function in an expression; it needs no name. -/
def functionExpression (g : Grammar) : Reader Unit := do
  g.functionHead
  maybe (do let _ ← g.word)
  g.functionRest

/-- The name of a member of a class or an object with the words before it. -/
def methodHead (g : Grammar) : Reader Unit := do
  if g.typed then g.memberHead
  else
    let _ ← g.modifiers ["static"] fun c => startsName c || c == '*'
    let _ ← g.modifiers ["async"] fun c => startsName c || c == '*'
    maybe do
      char '*'
      g.skip
    let _ ← g.modifiers ["get", "set"] startsName
    let _ ← g.propertyName

/-- The signature and the body of a method. -/
def methodRest (g : Grammar) : Reader Unit := do
  g.skipClosed
  if g.typed then maybe (do char '?'; g.skip)
  g.signature .inside
  g.skip
  g.block

/-- The end of a member of a class in a typed dialect. -/
def memberEnd (g : Grammar) (operators : Bool) : Reader Unit :=
  (do require g.typed; g.skipClosed; char ',') <|> (do let _ ← g.semicolon operators)

/-- A method without a body. -/
def methodSignature (g : Grammar) : Reader Unit := do
  require g.typed
  let ending : Ending := { mayEnd := true, operators := false, body := true }
  maybe do
    let _ ← g.gap ending
    char '?'
  let _ ← g.gap ending
  g.signature ending
  (do g.skipClosed; char ',') <|> (do
    let _ ← g.finishFrom ending (char ';') (g.limit + 1))

/-- The rest of a field after its name. -/
def fieldRest (g : Grammar) : Reader Unit := do
  if g.typed then
    maybe do
      let _ ← g.gap .plain
      char '?' <|> char '!'
    maybe do
      let _ ← g.gap .plain
      g.annotation .plain
  let initialized ← succeeded do
    let _ ← g.gap .plain
    g.initializer .expression
  g.memberEnd initialized

/-- A member of a class. -/
def classMember (g : Grammar) : Reader Unit :=
  firstOf [
    char ';',
    do
      g.keyword "static"
      g.skip
      g.block,
    do
      require g.typed
      let _ ← g.decorators
      g.indexSignature .plain
      g.memberEnd false,
    do
      let _ ← g.decorators
      g.methodHead
      firstOf [
        do
          g.methodRest
          if g.typed then maybe (g.semicolon false) else maybe (do g.skipClosed; char ';'),
        g.methodSignature,
        g.fieldRest]]

/-- The body of a class. -/
def classBody (g : Grammar) : Reader Unit := do
  char '\x7b'
  let _ ← many (do g.skip; g.classMember) g.limit
  g.skip
  char '\x7d'

/-- What a class extends and implements. -/
def heritage (g : Grammar) : Reader Unit := do
  maybe do
    g.keyword "extends"
    let _ ← g.valueOf .inside
    if g.typed then
      let _ ← many (do g.skipClosed; char ','; g.valueOf .inside) g.limit
  if g.typed then
    maybe do
      g.skip
      g.keyword "implements"
      g.typeInside
      let _ ← many (do g.skipClosed; char ','; g.typeInside) g.limit

/-- The name of a class, with its type parameters. -/
def className (g : Grammar) : Reader Unit := do
  let _ ← g.wordThat fun w => w != "extends" && !(g.typed && w == "implements")

/-- A class from its word on. A class that is declared has a name. -/
def classRule (g : Grammar) (named : Bool) : Reader Unit := do
  g.keyword "class"
  g.skip
  if named then g.className else maybe g.className
  g.skip
  if g.typed then maybe (do g.typeParameters; g.skip)
  g.heritage
  g.skip
  g.classBody

end Grammar

end RemoteImports.Script
