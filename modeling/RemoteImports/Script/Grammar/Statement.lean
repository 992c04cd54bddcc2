import RemoteImports.Script.Grammar.Expression

/-!
# Statements

Every statement of a script except imports and exports. The tree shows what the tool asks about: the
names of functions, and what stands at the top of an expression statement.
-/

namespace RemoteImports.Script

open Reader

namespace Grammar

/-- A node of a kind from a start to the cursor. -/
def nodeFrom (start : Nat) (kind : Kind := .other) (children : List Node := []) : Reader Node := do
  pure ⟨kind, none, start, ← here, children⟩

/-- A rule without a tree, as a node. -/
def plainNode (rule : Reader Unit) : Reader Node := do
  let start ← here
  rule
  nodeFrom start

/-! ## Variables -/

/-- A name or a pattern that a declaration binds. -/
def bindingTarget (g : Grammar) : Reader Unit := do
  match ← peek with
  | some '[' => do
    let p ← g.arrayLiteral
    require p.target
  | some '\x7b' => do
    let p ← g.objectLiteral
    require p.target
  | _ => do
    let _ ← g.word

/-- One variable of a declaration: a target, perhaps with a type, and perhaps its value. Gives
whether it has a value. -/
def declarator (g : Grammar) : Reader Bool := do
  g.skip
  g.bindingTarget
  if g.typed then
    maybe do
      let _ ← g.gap .plain
      maybe (char '!')
      g.annotation .plain
  succeeded do
    let _ ← g.gap .plain
    g.initializer .expression

/-- The variables of a declaration up to its end. -/
def declarators (g : Grammar) : Reader Unit := do
  let first ← g.declarator
  let more ← many (do
    g.skipClosed
    char ','
    g.declarator) g.limit
  let _ ← g.semicolon ((first :: more).getLast?.getD false)

/-- A declaration of variables. After `let` stands something that cannot be an operator. -/
def variableDeclaration (g : Grammar) : Reader Unit := do
  (g.keyword "var" <|> g.keyword "const") <|> (do
    g.keyword "let"
    let _ ← g.gap .expression
    let w ← g.peekWord
    let c ← peek
    require (w.any (!g.operatorWords.contains ·) || c == some '[' || c == some '\x7b'))
  g.declarators

/-! ## Declarations -/

/-- A declared function: it has a name. In a typed dialect it may lack a body; then it is no
function declaration. -/
def functionDeclaration (g : Grammar) (operators : Bool) : Reader Node := do
  let start ← here
  g.functionHead
  let name ← g.wordNode .identifier
  (do
    g.functionRest
    g.optionalEnd operators
    nodeFrom start .functionDeclaration [name.as .name]) <|> (do
    require g.typed
    let ending : Ending := { mayEnd := true, operators := false, body := true }
    let _ ← g.gap ending
    g.signature ending
    let _ ← g.finishFrom ending (char ';') (g.limit + 1)
    nodeFrom start)

/-- A declared class: it has a name. -/
def classDeclaration (g : Grammar) (operators : Bool) : Reader Unit := do
  g.classRule true
  g.optionalEnd operators

/-- A class without instances, whose methods may lack a body. -/
def abstractClass (g : Grammar) : Reader Unit := do
  g.keyword "abstract"
  g.skip
  g.classRule true

/-- An interface. -/
def interfaceDeclaration (g : Grammar) : Reader Unit := do
  g.keyword "interface"
  g.skip
  let _ ← g.word
  g.skip
  maybe (do g.typeParameters; g.skip)
  maybe do
    g.keyword "extends"
    let base : Reader Unit := do
      g.skip
      g.dottedName
      maybe (do g.skipClosed; g.typeArguments)
    base
    let _ ← many (do g.skipClosed; char ','; base) g.limit
    g.skip
  g.typeBody

/-- A named type. Where the statement could end after the word `type`, that word is a name. -/
def typeAlias (g : Grammar) : Reader Unit := do
  g.keyword "type"
  let _ ← g.gap .expression
  let _ ← g.wordThat (!g.operatorWords.contains ·)
  g.skip
  maybe (do g.typeParameters; g.skip)
  char '='
  g.type .plain
  let _ ← g.semicolon false

/-- An enumeration. -/
def enumDeclaration (g : Grammar) : Reader Unit := do
  maybe (do g.keyword "const"; g.skip)
  g.keyword "enum"
  g.skip
  let _ ← g.word
  g.sign "\x7b"
  let _ ← g.itemsClosed (do
    let _ ← g.propertyName
    maybe (do g.skipClosed; g.initializer .inside)) '\x7d'

/-- A namespace or a module with a body; a module may do without. -/
def namespaceDeclaration (g : Grammar) : Reader Unit := do
  g.keyword "namespace" <|> g.keyword "module"
  let _ ← g.gap .expression
  (do let _ ← stringLiteral g.limit) <|> (do
    require !((← g.peekWord).any g.operatorWords.contains)
    g.dottedName)
  maybe do
    g.skip
    g.block
    g.optionalEnd false

/-- Another name for a name of a namespace. -/
def importAlias (g : Grammar) : Reader Unit := do
  g.keyword "import"
  g.skip
  let _ ← g.word
  g.sign "="
  g.skip
  g.dottedName
  let _ ← g.semicolon false

/-- The declarations of all dialects. With `expression`, a declared function or class could also be
read as an expression. -/
def declaration (g : Grammar) (expression : Bool) : Reader Node :=
  firstOf [
    g.functionDeclaration expression,
    plainNode do
      let _ ← g.decorators
      g.classDeclaration expression,
    plainNode (do require g.typed; g.enumDeclaration),
    plainNode g.variableDeclaration,
    plainNode do
      require g.typed
      let _ ← g.decorators
      g.abstractClass,
    plainNode do
      require g.typed
      firstOf [g.interfaceDeclaration, g.typeAlias, g.namespaceDeclaration, g.importAlias]]

/-- A declaration of something that exists elsewhere. -/
def ambientDeclaration (g : Grammar) : Reader Unit := do
  g.keyword "declare"
  let _ ← g.gap .expression
  firstOf [
    do let _ ← g.declaration false,
    do
      g.keyword "global"
      g.skip
      g.block
      g.optionalEnd false,
    do
      g.keyword "module"
      g.sign "."
      g.skip
      let _ ← g.word
      g.sign ":"
      g.type .plain
      let _ ← g.semicolon false]

/-! ## Statements that hold others -/

/-- An expression between round brackets after a word. -/
def condition (g : Grammar) : Reader Unit := do
  g.skip
  let p ← g.brackets
  require p.value

/-- A statement inside another one. -/
def body (g : Grammar) : Reader Unit := do
  let _ ← g.statement

/-- A choice between statements. -/
def ifStatement (g : Grammar) : Reader Unit := do
  g.keyword "if"
  g.condition
  g.body
  maybe do
    g.skip
    g.keyword "else"
    g.body

/-- The left side of a loop over the values or keys of something. -/
def loopTarget (g : Grammar) : Reader Unit :=
  (do
    let w ← g.wordThat ["var", "const", "let"].contains
    g.skip
    require !(w == "let" && ((← g.seesWord "of") || (← g.seesWord "in")))
    g.bindingTarget
    if g.typed then maybe (do g.skipClosed; g.annotation .inside)
    maybe do
      require (w == "var")
      g.skipClosed
      g.initializer { Ending.inside with loose := false }) <|> (do
    let first ← g.primaryOperand .inside g.limit
    let p ← g.withTight .inside g.limit first
    require p.assignable)

/-- A loop over the values or keys of something. -/
def forInStatement (g : Grammar) : Reader Unit := do
  g.keyword "for"
  g.skip
  maybe (do g.keyword "await"; g.skip)
  char '('
  g.skip
  g.loopTarget
  g.skipClosed
  g.keyword "in" <|> g.keyword "of"
  let _ ← g.expressions .inside
  g.sign ")"
  g.body

/-- A loop with a start, a condition and a step. -/
def forStatement (g : Grammar) : Reader Unit := do
  g.keyword "for"
  g.sign "("
  g.skip
  firstOf [
    g.variableDeclaration,
    do
      let _ ← g.expressions .inside
      g.skipClosed
      char ';',
    char ';']
  g.skip
  (char ';') <|> (do
    let _ ← g.expressions .inside
    g.skipClosed
    char ';')
  g.skip
  maybe (do let _ ← g.expressions .inside; g.skipClosed)
  char ')'
  g.body

/-- A loop that tests first. -/
def whileStatement (g : Grammar) : Reader Unit := do
  g.keyword "while" <|> g.keyword "with"
  g.condition
  g.body

/-- A loop that tests last. -/
def doStatement (g : Grammar) : Reader Unit := do
  g.keyword "do"
  g.body
  g.skip
  g.keyword "while"
  g.condition
  maybe (g.semicolon false)

/-- A block with handlers. -/
def tryStatement (g : Grammar) : Reader Unit := do
  g.keyword "try"
  g.skip
  g.block
  let handled ← succeeded do
    g.skip
    g.keyword "catch"
    g.skip
    maybe do
      char '('
      g.skip
      g.bindingTarget
      if g.typed then maybe (do g.skipClosed; g.annotation .inside)
      g.sign ")"
      g.skip
    g.block
  let finished ← succeeded do
    g.skip
    g.keyword "finally"
    g.skip
    g.block
  let seen (w : String) : Reader Bool := do
    g.skip
    g.seesWord w
  if !handled && !finished then
    if ← sees (do require (← seen "catch")) then failure
  if !finished then
    if ← sees (do require (← seen "finally")) then failure
  g.optionalEnd false

/-- A choice between cases. -/
def switchStatement (g : Grammar) : Reader Unit := do
  g.keyword "switch"
  g.condition
  g.sign "\x7b"
  let _ ← many (do
    g.skip
    (do
      g.keyword "case"
      let _ ← g.expressions { Ending.inside with resultTypes := false }) <|> g.keyword "default"
    g.sign ":"
    many (do
      g.skip
      if (← g.seesWord "case") || (← g.seesWord "default") then failure
      g.statement) g.limit) g.limit
  g.sign "\x7d"

/-! ## Small statements -/

/-- A statement that leaves a loop or a block, perhaps a labelled one. -/
def jumpStatement (g : Grammar) : Reader Unit := do
  g.keyword "break" <|> g.keyword "continue"
  maybe do
    let _ ← g.gap .plain
    g.word
  let _ ← g.semicolon false

/-- A statement that leaves a function. -/
def returnStatement (g : Grammar) : Reader Unit := do
  g.keyword "return"
  let valued ← succeeded do
    let _ ← g.gap .plain
    g.expressions .expression
  let _ ← g.semicolon valued

/-- A statement that raises an exception. -/
def throwStatement (g : Grammar) : Reader Unit := do
  g.keyword "throw"
  let _ ← g.expressions .expression
  let _ ← g.semicolon true

/-- The words that cannot be a label. -/
def wordsThatBegin : List String :=
  ["var", "const", "function", "class", "if", "switch", "for", "while", "do", "try", "with",
    "break", "continue", "debugger", "return", "throw", "import", "new", "this", "super", "true",
    "false", "null", "undefined", "typeof", "void", "delete", "await", "yield"]

/-- A statement with a label. -/
def labelledStatement (g : Grammar) : Reader Unit := do
  let _ ← g.wordThat (!wordsThatBegin.contains ·)
  let _ ← g.gap .expression
  char ':'
  g.body

/-- An expression as a statement. -/
def expressionStatement (g : Grammar) : Reader Node := do
  let start ← here
  let value ← g.expressions .expression
  let _ ← g.semicolon true
  nodeFrom start .expressionStatement [value]

/-- Whether what comes next can only go on with an expression. -/
def expressionGoesOn (g : Grammar) : Reader Bool :=
  succeeded do
    g.skipClosed
    let w ← g.peekWord
    let c ← peek
    require (w == some "in" || w == some "instanceof" ||
      c.any fun c => ".,?=*%&|^>".toList.contains c)

/-- A statement that begins like an expression. It is an expression where the other rule refuses,
and where only an expression can go on as the text does. -/
def unlessExpression (g : Grammar) (rule : Reader Node) : Reader Node := fun c =>
  match rule c with
  | .error reach => g.expressionStatement (c.reaching reach)
  | .ok (node, after) =>
    match g.expressionGoesOn after with
    | .ok (true, _) =>
      match g.expressionStatement c with
      | .ok done => .ok done
      | .error reach => .ok (node, after.reaching reach)
    | _ => .ok (node, after)

/-- A block as a statement. An empty one could also be an object, so an operator could follow. -/
def blockStatement (g : Grammar) : Reader Node := do
  let start ← here
  let empty ← sees do char '\x7b'; g.skip; char '\x7d'
  g.block
  g.optionalEnd empty
  nodeFrom start

end Grammar

end RemoteImports.Script
