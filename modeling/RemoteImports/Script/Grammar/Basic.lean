import RemoteImports.Script.Dialect
import RemoteImports.Script.Lexeme
import RemoteImports.Script.Semicolon

/-!
# The grammar and its knot

The grammar of scripts is a set of mutually recursive rules. `Grammar` holds the rules that others
call back; every other rule is an ordinary reader over it. `Script.Program` ties the knot over a
bound on the depth of nesting.

This file holds what all rules share: phrases, the words of the grammar, and the ways in which a
statement may end.
-/

namespace RemoteImports.Script

open Reader

/-- What is known about a place in a statement. -/
structure Ending where
  /-- Whether the statement may end here without a semicolon. -/
  mayEnd : Bool
  /-- Whether a binary operator may follow. -/
  operators : Bool := true
  /-- Whether the body of a function may follow. -/
  body : Bool := false
  /-- Whether a colon may bring the result type of an arrow function. -/
  resultTypes : Bool := true
  /-- Whether the word `in` and what binds looser may go on with the expression. -/
  loose : Bool := true
  deriving DecidableEq, Inhabited, Repr

namespace Ending

/-- Inside brackets. -/
def inside : Ending := { mayEnd := false }

/-- At the end of an expression statement. -/
def expression : Ending := { mayEnd := true }

/-- At the end of something that no operator can follow. -/
def plain : Ending := { mayEnd := true, operators := false }

end Ending

/-- An expression as it was read. An expression is read before it is known what it will be: brackets
around names may turn out to be a literal, a pattern or the parameters of a function. The flags say
what it can still be. -/
structure Phrase where
  node : Node
  /-- It has a value. -/
  value : Bool := true
  /-- A value can be assigned to it. -/
  assignable : Bool := false
  /-- It can be one of the targets of a pattern. -/
  target : Bool := false
  /-- It is a target with a default value. -/
  defaulted : Bool := false
  /-- It can be the parameters of an arrow function. -/
  parameters : Bool := false
  /-- It binds tighter than any operator. -/
  primary : Bool := true
  /-- It is a finished expression that no operator can extend. -/
  complete : Bool := false
  deriving Inhabited, Repr

/-- Whether a phrase can be an element of a pattern. -/
def Phrase.isElement (p : Phrase) : Bool := p.target || p.defaulted

/-- The rules of the grammar that other rules call back. -/
structure Grammar where
  dialect : Dialect
  /-- A bound on the rounds of any loop. -/
  limit : Nat
  /-- An expression without commas at its top. -/
  expression : Ending → Reader Phrase
  /-- A type. -/
  type : Ending → Reader Unit
  /-- A statement. -/
  statement : Reader Node
  /-- An element of the markup. -/
  markup : Reader Unit

namespace Grammar

/-! ## Layout and words -/

/-- Skips layout where no operator can come next. -/
def skip (g : Grammar) : Reader Unit := do
  let _ ← openLayout g.limit

/-- Skips layout where an operator may come next. -/
def skipClosed (g : Grammar) : Reader Unit := do
  let _ ← layout g.limit

/-- A word. -/
def word (g : Grammar) : Reader String := Script.word g.limit

/-- A word with a property. A word without it is refused where it starts. -/
def wordThat (g : Grammar) (accepted : String → Bool) : Reader String := fun c =>
  match g.word c with
  | .error reach => .error reach
  | .ok (w, after) => if accepted w then .ok (w, after) else refuse c

/-- A given word. -/
def keyword (g : Grammar) (expected : String) : Reader Unit := do
  let _ ← g.wordThat (· == expected)

/-- The word that comes next, if one does. -/
def peekWord (g : Grammar) : Reader (Option String) := fun c =>
  .ok ((g.word c).toOption.map (·.1), c)

/-- Whether a given word comes next. -/
def seesWord (g : Grammar) (expected : String) : Reader Bool := do
  pure ((← g.peekWord) == some expected)

/-- A given word as a node, for rules whose tree shows it. -/
def keywordNode (g : Grammar) (expected : String) : Reader Node := do
  let start ← here
  g.keyword expected
  pure (.leaf (.keyword expected) start (← here))

/-- A word as a node. -/
def wordNode (g : Grammar) (kind : Kind) : Reader Node := do
  let start ← here
  let _ ← g.word
  pure (.leaf kind start (← here))

/-- A sign after layout. -/
def sign (g : Grammar) (s : String) : Reader Unit := do
  g.skip
  text s

/-- Whether a dialect has types. -/
def typed (g : Grammar) : Bool := g.dialect.hasTypes

/-- The words that are operators, so that they cannot start something new after an operand. -/
def operatorWords (g : Grammar) : List String :=
  if g.typed then ["in", "instanceof", "as", "satisfies"] else ["in", "instanceof"]

/-! ## Ends of statements -/

/-- Whether the statement ends here without a semicolon. -/
def endsHere (g : Grammar) (ending : Ending) : Reader Bool := do
  let text ← ahead
  pure (ending.mayEnd && Semicolon.endsHere ⟨g.typed, ending.operators, ending.body⟩ text)

/-- The way from a token to the next one of the same statement; refused where the statement ends
first. Gives the comments on the way. -/
def gapFrom (g : Grammar) (ending : Ending) : Nat → Reader (List Node)
  | 0 => failure
  | limit + 1 => do
    if ← g.endsHere ending then failure
    blanks
    match ← optional comment with
    | some note => do
      let notes ← gapFrom g ending limit
      pure (note :: notes)
    | none => pure []

/-- The way from a token to the next one of the same statement. -/
def gap (g : Grammar) (ending : Ending) : Reader (List Node) := g.gapFrom ending (g.limit + 1)

/-- The end of a statement: a semicolon, or a place where none is needed. Comments before that place
belong to the statement; `stop` says what ends it besides. -/
def finishFrom (g : Grammar) (ending : Ending) (stop : Reader Unit) : Nat → Reader (List Node)
  | 0 => failure
  | limit + 1 => do
    if ← g.endsHere ending then pure []
    else
      blanks
      match ← optional comment with
      | some note => do
        let notes ← finishFrom g ending stop limit
        pure (note :: notes)
      | none => do
        stop
        pure []

/-- The end of a statement. -/
def semicolon (g : Grammar) (operators : Bool) : Reader (List Node) :=
  g.finishFrom { mayEnd := true, operators } (char ';') (g.limit + 1)

/-- The end of a statement that needs no semicolon: comments belong to it only if an end follows
them. -/
def optionalEnd (g : Grammar) (operators : Bool) : Reader Unit :=
  maybe (g.finishFrom { mayEnd := true, operators } failure (g.limit + 1))

/-! ## Lists -/

/-- Items between commas, each of which may be left out. -/
def items {α : Type} (g : Grammar) (item : Reader α) (close : Char) : Reader (List α) := do
  let found ← many (do
    g.skip
    (do char ','; pure none) <|> (do
      let x ← item
      g.skipClosed
      char ',' <|> (do require ((← peek) == some close))
      pure (some x))) g.limit
  g.skip
  char close
  pure (found.filterMap id)

/-- Items between commas, none left out, and whether a comma follows the last one. -/
def itemsTrailing {α : Type} (g : Grammar) (item : Reader α) (close : Char) :
    Reader (List α × Bool) := do
  let found ← many (do
    g.skip
    let x ← item
    g.skipClosed
    let comma ← succeeded (char ',')
    if !comma then require ((← peek) == some close)
    pure (x, comma)) g.limit
  g.skip
  char close
  pure (found.map (·.1), found.getLast?.any (·.2))

/-- Items between commas, none left out; a comma may follow the last one. -/
def itemsClosed {α : Type} (g : Grammar) (item : Reader α) (close : Char) : Reader (List α) := do
  let (found, _) ← g.itemsTrailing item close
  pure found

/-! ## Shared rules -/

/-- An expression that has a value. -/
def valueOf (g : Grammar) (ending : Ending) : Reader Phrase := do
  let p ← g.expression ending
  require p.value
  pure p

/-- Expressions between commas. The node of a single expression is its own. -/
def expressions (g : Grammar) (ending : Ending) : Reader Node := do
  g.skip
  let start ← here
  let first ← g.valueOf ending
  let more ← many (do
    let _ ← g.gap ending
    char ','
    g.valueOf ending) g.limit
  if more.isEmpty then pure first.node else pure (.leaf .other start (← here))

/-- The arguments of a call. -/
def arguments (g : Grammar) : Reader Unit := do
  char '('
  let _ ← g.items (do maybe (text "..."); g.valueOf .inside) ')'

/-- A block of statements. -/
def block (g : Grammar) : Reader Unit := do
  char '{'
  let _ ← many g.statement g.limit
  g.skip
  char '}'

/-- A private name. -/
def privateName (g : Grammar) : Reader Unit := do
  char '#'
  let _ ← g.word

/-- The name of a property. -/
def propertyName (g : Grammar) : Reader Node := do
  let start ← here
  firstOf [
    g.wordNode .propertyName,
    stringLiteral g.limit,
    do
      firstOf [
        g.privateName,
        number g.limit,
        do
          char '['
          let _ ← g.valueOf .inside
          g.sign "]"]
      pure (.leaf .other start (← here))]

/-- The name of an applied decorator: words between dots. -/
def dottedName (g : Grammar) : Reader Unit := do
  let _ ← g.word
  let _ ← many (do g.skipClosed; char '.'; g.skip; g.word) g.limit

/-- The arguments of a type. -/
def typeArguments (g : Grammar) : Reader Unit := do
  char '<'
  let found ← g.itemsClosed (g.type .inside) '>'
  require (!found.isEmpty)

/-- A decorator. -/
def decorator (g : Grammar) : Reader Unit := do
  char '@'
  g.skip
  let applied : Reader Unit := do
    g.dottedName
    maybe do
      g.skipClosed
      if g.typed then maybe (do g.typeArguments; g.skipClosed)
      g.arguments
  applied <|> (do
    require g.typed
    char '('
    g.skip
    applied
    g.skipClosed
    char ')')

/-- Any number of decorators, with the layout after each. -/
def decorators (g : Grammar) : Reader Nat := do
  let found ← many (do g.decorator; g.skip) g.limit
  pure found.length

end Grammar

end RemoteImports.Script
