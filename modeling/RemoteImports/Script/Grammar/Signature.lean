import RemoteImports.Script.Grammar.Basic

/-!
# Parameters and signatures

Parameter lists of functions, and what the typed dialects add to them: type parameters, annotations,
modifiers and result types. `BracketItem` reads one entry between round brackets so that it can
still become a parameter, an argument or a value.
-/

namespace RemoteImports.Script

open Reader

/-- An entry between round brackets. -/
structure BracketItem where
  /-- It can be a parameter. -/
  parameter : Bool
  /-- It is an expression and nothing else. -/
  value : Bool
  /-- It is an expression with a type. -/
  typedValue : Bool
  deriving Inhabited, Repr

namespace Grammar

/-- Whether the name of a property or parameter can start with a character. -/
def startsName (c : Char) : Bool :=
  isWordStart c || c.isDigit || "\"'[#\x7b\\".toList.contains c

/-- Modifiers: words of a list, each with something to modify after it. Where the statement may end
after such a word, it is a name. -/
def modifiers (g : Grammar) (words : List String) (starts : Char → Bool) : Reader (List String) :=
  many (do
    let w ← g.wordThat words.contains
    let _ ← g.gap .plain
    require ((← peek).any starts)
    pure w) g.limit

/-- A type after a colon. -/
def annotation (g : Grammar) (ending : Ending) : Reader Unit := do
  char ':'
  g.type ending

/-- The type that a function gives, or what it asserts about a parameter. -/
def resultType (g : Grammar) (ending : Ending) : Reader Unit := do
  g.skip
  let about : Reader Unit := do
    let _ ← g.gap ending
    g.keyword "is"
    g.type ending
  firstOf [
    do
      g.keyword "asserts"
      let _ ← g.gap ending
      let _ ← g.word
      maybe about,
    do
      let _ ← g.word
      about,
    g.type ending]

/-- A default value: an equals sign that is no comparison, and an expression. -/
def initializer (g : Grammar) (ending : Ending) : Reader Unit := do
  char '='
  require ((← peek) != some '=')
  let _ ← g.valueOf ending

/-- A type parameter. -/
def typeParameter (g : Grammar) : Reader Unit := do
  maybe (do g.keyword "const"; g.skip; require ((← peek).any isWordStart))
  let _ ← g.word
  maybe do
    g.skipClosed
    g.keyword "extends" <|> char ':'
    g.type .inside
  maybe do
    g.skipClosed
    char '='
    g.type .inside

/-- The type parameters of a function, a class or a type. -/
def typeParameters (g : Grammar) : Reader Unit := do
  char '<'
  let found ← g.itemsClosed g.typeParameter '>'
  require (!found.isEmpty)

/-- The words that modify a parameter. -/
def parameterModifiers : List String := ["public", "private", "protected", "override", "readonly"]

/-- What the typed dialects allow after a parameter: a question mark, a type, a default value. Gives
whether each is there. -/
def parameterSuffix (g : Grammar) : Reader (Bool × Bool × Bool) := do
  let optional ← succeeded do g.skipClosed; char '?'
  let annotated ← succeeded do g.skipClosed; g.annotation .inside
  let initialized ← succeeded do g.skipClosed; g.initializer .inside
  pure (optional, annotated, initialized)

/-- One entry between round brackets. -/
def bracketItem (g : Grammar) : Reader BracketItem := do
  let decorated ← if g.typed then g.decorators else pure 0
  let modified ←
    if g.typed then g.modifiers parameterModifiers fun c => isWordStart c || c == '[' || c == '\x7b'
    else pure []
  let spread ← succeeded do text "..."; g.skip
  let isThis ← g.seesWord "this"
  let p ← g.expression .inside
  let isThis := g.typed && isThis && p.node.stop == p.node.start + 4
  let (optional, annotated, initialized) ←
    if g.typed then g.parameterSuffix else pure (false, false, false)
  let plain := decorated == 0 && modified.isEmpty && !spread && !optional && !initialized
  pure {
    parameter := if spread then p.target else p.isElement || isThis
    value := plain && !annotated && p.value
    typedValue := plain && annotated && p.value }

/-- A parameter list. -/
def parameters (g : Grammar) : Reader Unit := do
  char '('
  let found ← g.itemsClosed g.bracketItem ')'
  require (found.all (·.parameter))

/-- The parameters of a function, with its type parameters and result type where the dialect has
types. -/
def signature (g : Grammar) (ending : Ending) : Reader Unit := do
  if g.typed then maybe (do g.typeParameters; g.skip)
  g.parameters
  if g.typed then
    maybe do
      let _ ← g.gap ending
      char ':'
      g.resultType ending

end Grammar

end RemoteImports.Script
