import RemoteImports.Script.Grammar.Markup

/-!
# Expressions

An expression is read from left to right: an operand, what binds tightly to it, and then either
nothing or an operator and the rest. How tightly the operators bind does not matter to where an
expression ends, nor to which assignments stand at its top, so the rest is simply another
expression.
-/

namespace RemoteImports.Script

open Reader

namespace Grammar

/-- A phrase of a kind from a start to the cursor. -/
def phraseFrom (start : Nat) (kind : Kind := .other) (children : List Node := []) :
    Reader Phrase := do
  pure { node := ⟨kind, none, start, ← here, children⟩ }

/-- A finished expression: no operator extends it. -/
def completeFrom (start : Nat) : Reader Phrase := do
  pure { ← phraseFrom start with primary := false, complete := true }

/-- The name of a variable. -/
def nameFrom (start : Nat) : Reader Phrase := do
  pure
    { ← phraseFrom start .identifier with
      assignable := true
      target := true
      parameters := true }

/-! ## Literals -/

/-- The characters of a template up to a sign that ends them; refused if the text ends first. -/
def templateChars : Reader Unit := do
  let after := (← ahead).dropWhile fun c => c != '\u0060' && c != '\\' && c != '$'
  if after.isEmpty then failure
  let _ ← takeWhile1 fun c => c != '\u0060' && c != '\\' && c != '$'

/-- The characters of a template and the expressions in it. -/
def template (g : Grammar) : Reader Unit := do
  char '\u0060'
  let _ ← many (firstOf [
    templateChars,
    escapeSequence,
    do
      text "$\x7b"
      let _ ← g.expressions .inside
      g.sign "\x7d",
    do
      char '$'
      require ((← peek) != some '\x7b')]) g.limit
  char '\u0060'

/-- An element of an array literal or an array pattern. -/
def arrayItem (g : Grammar) : Reader Phrase := do
  let spread ← succeeded do text "..."; g.skip
  let p ← g.expression .inside
  pure (if spread then { p with defaulted := false } else p)

/-- An array literal, or a pattern for one. -/
def arrayLiteral (g : Grammar) : Reader Phrase := do
  let start ← here
  char '['
  let found ← g.items g.arrayItem ']'
  let isPattern := found.all (·.isElement)
  pure { ← phraseFrom start with
    value := found.all (·.value), assignable := isPattern, target := isPattern }

/-- An entry of an object literal that is a method. -/
def methodEntry (g : Grammar) : Reader Phrase := do
  let start ← here
  g.methodHead
  g.methodRest
  phraseFrom start

/-- An entry of an object literal with a key and a value, or a method without words before its
name. -/
def keyedEntry (g : Grammar) : Reader Phrase := do
  let start ← here
  let key ← g.propertyName
  (do
    g.skipClosed
    char ':'
    g.skip
    let p ← g.expression .inside
    let made ← phraseFrom start .pair [key.as .key, p.node.as .value]
    pure { made with value := p.value, target := p.isElement }) <|> (do
    g.methodRest
    phraseFrom start)

/-- An entry of an object literal that is a name alone, with a default value if it is to be a
pattern. -/
def shorthandEntry (g : Grammar) : Reader Phrase := do
  let start ← here
  let name ← g.wordNode .shorthand
  (do
    g.skipClosed
    g.initializer .inside
    pure { ← phraseFrom start with value := false, target := true }) <|>
    pure { node := name, target := true }

/-- An entry of an object literal or an object pattern. -/
def objectEntry (g : Grammar) : Reader Phrase :=
  firstOf [
    do
      let start ← here
      text "..."
      g.skip
      let p ← g.expression .inside
      pure { ← phraseFrom start with value := p.value, target := p.target },
    do
      let w ← g.peekWord
      require ((← peek).any (fun c => c == '*' || c == '@') ||
        w.any ["get", "set", "async", "static"].contains ||
        g.typed && w.any memberModifiers.contains)
      let _ ← g.decorators
      let p ← g.methodEntry
      g.skipClosed
      require ((← peek).any fun c => c == ',' || c == '\x7d')
      pure p,
    g.keyedEntry,
    g.shorthandEntry]

/-- An object literal, or a pattern for one. -/
def objectLiteral (g : Grammar) : Reader Phrase := do
  let start ← here
  char '\x7b'
  let found ← g.items g.objectEntry '\x7d'
  let isPattern := found.all (·.isElement)
  pure { ← phraseFrom start .object (found.map (·.node)) with
    value := found.all (·.value), assignable := isPattern, target := isPattern }

/-- Expressions between round brackets, or the parameters of an arrow function. -/
def brackets (g : Grammar) : Reader Phrase := do
  let start ← here
  char '('
  let (found, trailing) ← g.itemsTrailing g.bracketItem ')'
  let value := !trailing && !found.isEmpty &&
    (found.all (·.value) || found.length == 1 && found.all (·.typedValue))
  pure { ← phraseFrom start with
    value, assignable := value, parameters := found.all (·.parameter) }

/-! ## Arrow functions -/

/-- The body of an arrow function after its arrow. A block comes before an object. -/
def arrowBody (g : Grammar) (ending : Ending) (start : Nat) : Reader Phrase := do
  text "=>"
  g.skip
  (do g.block; phraseFrom start) <|> (do
    let _ ← g.valueOf ending
    completeFrom start)

/-- An arrow function after its parameters: perhaps a result type, the arrow, and the body. -/
def arrowRest (g : Grammar) (ending : Ending) (start : Nat) : Reader Phrase :=
  g.arrowBody ending start <|> (do
    require (g.typed && ending.resultTypes)
    char ':'
    g.resultType .inside
    g.skipClosed
    g.arrowBody ending start)

/-- An arrow function with type parameters. -/
def genericArrow (g : Grammar) (ending : Ending) (start : Nat) : Reader Phrase := do
  g.typeParameters
  g.skip
  g.parameters
  let _ ← g.gap ending
  g.arrowRest ending start

/-! ## Operands -/

/-- The operand that begins with the word `async`. -/
def asyncOperand (g : Grammar) (ending : Ending) : Reader Phrase := do
  let start ← here
  firstOf [
    do
      g.keyword "async"
      let _ ← g.gap ending
      require (← g.seesWord "function")
      g.functionExpression
      phraseFrom start,
    do
      g.keyword "async"
      let _ ← g.gap ending
      firstOf [
        do
          let _ ← g.word
          let _ ← g.gap ending
          g.arrowBody ending start,
        do
          require g.typed
          g.genericArrow ending start,
        do
          g.parameters
          let _ ← g.gap ending
          g.arrowRest ending start],
    do
      g.keyword "async"
      nameFrom start]

/-- The operand of `new` and the calls after it, apart from the arguments. -/
def newOperand (g : Grammar) (primary : Reader Phrase) (ending : Ending) : Reader Phrase := do
  let start ← here
  g.keyword "new"
  (do
    g.skip
    char '.'
    g.skip
    g.keyword "target"
    phraseFrom start) <|> (do
    g.skip
    let _ ← primary
    maybe do
      let _ ← g.gap ending
      if g.typed then maybe (do g.typeArguments; g.skipClosed)
      g.arguments
    phraseFrom start)

/-- The operand that begins with the word `import`. -/
def importOperand (g : Grammar) : Reader Phrase := do
  let start ← here
  g.keyword "import"
  g.skip
  g.arguments <|> (do
    char '.'
    g.skip
    let _ ← g.word)
  phraseFrom start

/-- A private name that is looked for in an object. -/
def privateOperand (g : Grammar) : Reader Phrase := do
  let start ← here
  g.privateName
  g.skipClosed
  require (← g.seesWord "in")
  phraseFrom start

/-- The words that begin an expression of their own. -/
def openingWords : List String :=
  ["function", "class", "new", "typeof", "void", "delete", "await", "yield", "import"]

/-- A word as an operand. -/
def wordOperand (g : Grammar) : Reader Phrase := do
  let start ← here
  let w ← g.wordThat (!openingWords.contains ·)
  match w with
  | "this" | "super" | "true" | "false" | "null" => phraseFrom start
  | "undefined" => pure { ← phraseFrom start with assignable := true, target := true }
  | _ => nameFrom start

/-- An operand that needs no operator before it. -/
def primaryOperand (g : Grammar) (ending : Ending) : Nat → Reader Phrase
  | 0 => failure
  | depth + 1 => do
    let start ← here
    let constructed := primaryOperand g ending depth
    let c ← peek
    match c with
    | some '(' => g.brackets
    | some '[' => g.arrayLiteral
    | some '\x7b' => g.objectLiteral
    | some '"' | some '\'' => do let node ← stringLiteral g.limit; pure { node }
    | some '\u0060' => do g.template; phraseFrom start
    | some '/' => do regularExpression g.limit; phraseFrom start
    | some '#' => g.privateOperand
    | some '@' => do
      let _ ← g.decorators
      g.classRule false
      phraseFrom start
    | some '<' =>
      firstOf [
        do require g.typed; g.genericArrow ending start,
        do require g.dialect.hasMarkup; g.markup; phraseFrom start]
    | _ =>
      firstOf [
        do number g.limit; phraseFrom start,
        do require (← g.seesWord "function"); g.functionExpression; phraseFrom start,
        do require (← g.seesWord "class"); g.classRule false; phraseFrom start,
        do require (← g.seesWord "async"); g.asyncOperand ending,
        do
          require (← g.seesWord "new")
          g.newOperand (do
            let p ← constructed
            members p.node.start) ending,
        do require (← g.seesWord "import"); g.importOperand,
        do
          require (g.typed && (← g.seesWord "new"))
          let _ ← g.word
          nameFrom start,
        g.wordOperand]
where
  /-- Properties after the operand of `new`. -/
  members (start : Nat) : Reader Phrase := do
    let _ ← many (firstOf [
      do
        g.skipClosed
        char '.'
        g.skip
        g.privateName <|> (do let _ ← g.word),
      do
        g.skipClosed
        char '['
        let _ ← g.expressions .inside
        g.sign "]",
      do
        g.skipClosed
        g.template]) g.limit
    phraseFrom start

/-! ## What binds tightly -/

/-- Whether the type arguments just read are really comparisons, because an operand follows. -/
def operandFollows (g : Grammar) : Reader Bool := do
  g.skipClosed
  let w ← g.peekWord
  let c ← peek
  match w with
  | some w => pure !("implements" :: g.operatorWords).contains w
  | none => pure (c.any fun c => c.isDigit || "\"'\u0060[!~@#+-".toList.contains c)

/-- A property after a dot. -/
def memberAfter (g : Grammar) (p : Phrase) : Reader Phrase := do
  g.skip
  let property ← g.wordNode .propertyName <|> (do
    let start ← here
    g.privateName
    pure (.leaf .other start (← here)))
  let made ← phraseFrom p.node.start .member [p.node.as .object, property.as .property]
  pure { made with assignable := true, target := true }

/-- A property between square brackets. -/
def subscriptAfter (g : Grammar) (p : Phrase) : Reader Phrase := do
  char '['
  let _ ← g.expressions .inside
  g.sign "]"
  pure { ← phraseFrom p.node.start with assignable := true, target := true }

/-- One property, call or sign that binds tightly to an operand. -/
def tightly (g : Grammar) (ending : Ending) (p : Phrase) : Reader Phrase := do
  let _ ← g.gap ending
  let start := p.node.start
  match ← peek with
  | some '.' => do
    char '.'
    g.memberAfter p
  | some '[' => g.subscriptAfter p
  | some '(' => do
    g.arguments
    phraseFrom start
  | some '\u0060' => do
    require p.primary
    g.template
    phraseFrom start
  | some '?' => do
    text "?."
    require !((← peek).any Char.isDigit)
    firstOf [
      do g.skip; g.subscriptAfter p,
      do
        g.skip
        if g.typed then maybe (do g.typeArguments; g.skipClosed)
        g.arguments
        phraseFrom start,
      g.memberAfter p]
  | some '+' => do
    text "++"
    pure { ← phraseFrom start with primary := false }
  | some '-' => do
    text "--"
    pure { ← phraseFrom start with primary := false }
  | some '!' => do
    require g.typed
    char '!'
    require ((← peek) != some '=')
    pure { ← phraseFrom start with assignable := true, target := true }
  | some '<' => do
    require g.typed
    g.typeArguments
    if ← sees (do require (← g.operandFollows)) then failure
    pure { ← phraseFrom start with primary := false }
  | _ => failure

/-- An operand with all that binds tightly to it. -/
def withTight (g : Grammar) (ending : Ending) : Nat → Phrase → Reader Phrase
  | 0, p => pure p
  | limit + 1, p => (do
      require (p.value && !p.complete)
      let q ← g.tightly ending p
      withTight g ending limit q) <|> pure p

/-! ## Operators -/

/-- The signs of the operators that combine two values, longer ones first. -/
def binarySigns : List String :=
  [">>>", ">>", ">=", ">", "<<", "<=", "<", "===", "==", "!==", "!=", "&&", "&", "||", "|", "??",
    "**", "*", "+", "-", "%", "/", "^"]

/-- The signs of the operators that bind at least as tight as the word `in`. -/
def tightSigns : List String :=
  [">>>", ">>", ">=", ">", "<<", "<=", "<", "**", "*", "+", "-", "%", "/"]

/-- The signs that change a variable by an operator, longer ones first. -/
def changingSigns : List String :=
  [">>>=", ">>=", "<<=", "&&=", "&=", "||=", "|=", "??=", "**=", "*=", "+=", "-=", "%=", "/=", "^="]

/-- The sign of a choice between two values, which is no other sign that begins alike. In a typed
dialect a question mark before a colon, a comma or a closing bracket marks a parameter. -/
def choiceSign (g : Grammar) : Reader Unit := do
  char '?'
  require ((← peek) != some '?')
  let text ← ahead
  match if g.typed then text.dropWhile Semicolon.isSpace else text with
  | '.' :: after => require (after.head?.any Char.isDigit)
  | c :: _ => require !(g.typed && (c == ':' || c == ')' || c == ','))
  | [] => pure ()

/-- A choice after its condition. -/
def choice (g : Grammar) (ending : Ending) : Reader Unit := do
  g.choiceSign
  (do
    let _ ← g.valueOf .inside
    g.skipClosed
    char ':') <|> (do
    require g.typed
    let _ ← g.valueOf { Ending.inside with resultTypes := false }
    g.skipClosed
    char ':')
  let _ ← g.valueOf ending

/-- An operator after a value, and the rest of the expression. -/
def operatorRest (g : Grammar) (ending : Ending) (p : Phrase) : Reader Phrase := do
  let start := p.node.start
  let typeOperator : Reader Phrase := do
    require g.typed
    g.keyword "as" <|> g.keyword "satisfies"
    g.type ending
    pure { ← phraseFrom start with primary := false }
  let plain : Reader Phrase := do
    firstOf [
      do
        require ending.loose
        firstOf (changingSigns.map text)
        require p.assignable
        let _ ← g.valueOf ending,
      do
        firstOf ((if ending.loose then binarySigns else tightSigns).map text)
        let _ ← g.valueOf ending,
      do
        (do require ending.loose; g.keyword "in") <|> g.keyword "instanceof"
        let _ ← g.valueOf ending,
      do
        require ending.loose
        g.choice ending]
    completeFrom start
  plain <|> typeOperator

/-- An assignment after its left side. -/
def assignment (g : Grammar) (ending : Ending) (p : Phrase) : Reader Phrase := do
  require (p.assignable && ending.loose)
  char '='
  require !((← peek).any fun c => c == '=' || c == '>')
  let right ← g.valueOf ending
  let made ← phraseFrom p.node.start .assignment [p.node.as .left, right.node.as .right]
  pure { made with primary := false, complete := true, defaulted := p.target }

/-- The rest of an expression after an operand. -/
def continuing (g : Grammar) (ending : Ending) : Nat → Phrase → Reader Phrase
  | 0, p => pure p
  | limit + 1, p => (do
      require !p.complete
      let _ ← g.gap ending
      let q ← firstOf [
        do
          require (p.parameters && ending.loose)
          let q ←
            if p.node.kind == .identifier then g.arrowBody ending p.node.start
            else g.arrowRest ending p.node.start
          g.withTight ending g.limit q,
        g.assignment ending p,
        do
          require p.value
          g.operatorRest ending p]
      continuing g ending limit q) <|> pure p

/-- An expression that begins with an operator or a word that is one. -/
def prefixed (g : Grammar) (ending : Ending) : Reader Phrase := do
  let start ← here
  firstOf [
    do
      firstOf [text "++", text "--", char '!', char '~', char '-', char '+']
      let _ ← g.valueOf ending,
    do
      firstOf [g.keyword "typeof", g.keyword "void", g.keyword "delete", g.keyword "await"]
      let _ ← g.valueOf ending,
    do
      g.keyword "yield"
      let _ ← g.gap ending
      (do char '*') <|> (do
        let w ← g.peekWord
        require !(w.any g.operatorWords.contains))
      let _ ← g.valueOf ending,
    do
      require (!g.dialect.hasMarkup)
      g.typeArguments
      let _ ← g.valueOf ending]
  completeFrom start

/-- The word `yield` without a value. -/
def bareYield (g : Grammar) : Reader Phrase := do
  let start ← here
  g.keyword "yield"
  pure { ← phraseFrom start with primary := false }

/-- An expression without commas at its top. -/
def expressionRule (g : Grammar) (ending : Ending) : Reader Phrase := do
  g.skip
  g.prefixed ending <|> (do
    let first ← g.primaryOperand ending g.limit <|> g.bareYield
    let operand ← g.withTight ending g.limit first
    g.continuing ending g.limit operand)

end Grammar

end RemoteImports.Script
