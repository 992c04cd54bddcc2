import RemoteImports.Script.Grammar.Statement

/-!
# Imports and exports

The statements that tie modules together. Their trees show every specifier, since the tool reads
them.
-/

namespace RemoteImports.Script

open Reader

namespace Grammar

/-- A name of a module: a word or a string. -/
def moduleName (g : Grammar) : Reader Node := g.wordNode .identifier <|> stringLiteral g.limit

/-- The module that a statement names after `from`. -/
def fromClause (g : Grammar) : Reader Node := do
  g.skip
  g.keyword "from"
  g.skip
  let source ← stringLiteral g.limit
  pure (source.as .source)

/-! ## Imports -/

/-- The words that restrict an import or an export to types. -/
def typeWord (g : Grammar) : Reader Node := do
  require g.typed
  g.keywordNode "type" <|> g.keywordNode "typeof"

/-- A specifier with the local name that it gets, or with its own. -/
def specifierBody (g : Grammar) : Reader (List Node) :=
  (do
    let name ← g.moduleName
    g.skip
    g.keyword "as"
    g.skip
    let renamed ← g.wordNode .identifier
    pure [name.as .name, renamed.as .otherName]) <|> (do
    let name ← g.wordNode .identifier
    pure [name.as .name])

/-- A specifier of an import. In a typed dialect the words for types come first; the word `type` is
a name where it is alone or renamed. -/
def importSpecifier (g : Grammar) : Reader Node := do
  let start ← here
  let restricted : Reader (List Node) := do
    let word ← g.typeWord
    g.skip
    if ← g.seesWord "as" then failure
    let rest ← g.specifierBody
    pure (word :: rest)
  let plain : Reader (List Node) := do
    if g.typed && (← g.seesWord "typeof") then failure
    g.specifierBody
  let children ← restricted <|> plain
  nodeFrom start .importSpecifier children

/-- The specifiers of an import between braces. -/
def namedImports (g : Grammar) : Reader Node := do
  let start ← here
  char '\x7b'
  let (found, _) ← g.itemsTrailing g.importSpecifier '\x7d' <|> (do
    g.sign ","
    g.sign "\x7d"
    pure ([], true))
  nodeFrom start .namedImports found

/-- The import of a module as a whole. -/
def namespaceImport (g : Grammar) : Reader Node := do
  let start ← here
  char '*'
  g.skip
  g.keyword "as"
  g.skip
  let name ← g.wordNode .identifier
  nodeFrom start .namespaceImport [name]

/-- What an import binds. -/
def importClause (g : Grammar) : Reader Node := do
  let start ← here
  let single : Reader Node := g.namespaceImport <|> g.namedImports
  (do
    let only ← single
    nodeFrom start .importClause [only]) <|> (do
    let name ← g.wordNode .identifier
    (do
      g.skip
      char ','
      g.skip
      let more ← single
      nodeFrom start .importClause [name, more]) <|> nodeFrom start .importClause [name])

/-- What an import says about the loading of the module. -/
def importAttributes (g : Grammar) : Reader Unit := do
  let _ ← g.gap .plain
  g.keyword "with"
  g.skip
  let p ← g.objectLiteral
  require p.value

/-- An import statement. -/
def importStatement (g : Grammar) : Reader Node := do
  let start ← here
  g.keyword "import"
  g.skip
  let clauseFrom : Reader (List Node) := do
    let clause ← g.importClause
    let source ← g.fromClause
    pure [clause, source]
  let required : Reader (List Node) := do
    require g.typed
    let _ ← g.word
    g.sign "="
    g.skip
    g.keyword "require"
    g.sign "("
    g.skip
    let _ ← stringLiteral g.limit
    g.sign ")"
    pure []
  let bare : Reader (List Node) := do
    let source ← stringLiteral g.limit
    pure [source.as .source]
  let children ← firstOf [
    do
      let word ← g.typeWord
      g.skip
      if (← g.seesWord "from") || (← peek) == some ',' || (← peek) == some '=' then failure
      let rest ← firstOf [clauseFrom, required, bare]
      pure (word :: rest),
    do
      if g.typed && (← g.seesWord "typeof") then failure
      firstOf [clauseFrom, required, bare]]
  maybe g.importAttributes
  let _ ← g.semicolon false
  nodeFrom start .importStatement children

/-! ## Exports -/

/-- A specifier of an export. -/
def exportSpecifier (g : Grammar) : Reader Node := do
  let start ← here
  let word : List Node ←
    if g.typed then
      (do
        let word ← g.typeWord
        g.skip
        pure [word]) <|> (do
        if (← g.seesWord "type") || (← g.seesWord "typeof") then failure
        pure [])
    else pure []
  let name ← g.moduleName
  let renamed ← orValue (do
    g.skip
    g.keyword "as"
    g.skip
    let renamed ← g.moduleName
    pure [renamed.as .otherName]) []
  nodeFrom start .exportSpecifier (word ++ name.as .name :: renamed)

/-- The specifiers of an export between braces. -/
def exportClause (g : Grammar) : Reader Node := do
  let start ← here
  char '\x7b'
  let (found, _) ← g.itemsTrailing g.exportSpecifier '\x7d' <|> (do
    g.sign ","
    g.sign "\x7d"
    pure ([], true))
  nodeFrom start .exportClause found

/-- A part of an export with the comments before it. -/
def afterNotes (ending : Reader (List Node)) (part : Reader (List Node)) : Reader (List Node) := do
  let notes ← ending
  let rest ← part
  pure (notes ++ rest)

/-- Specifiers that are exported, perhaps from another module. -/
def exportedNames (g : Grammar) : Reader (List Node) := do
  let clause ← g.exportClause
  let source ← orValue (afterNotes (g.gap .plain) do
    g.keyword "from"
    g.skip
    let source ← stringLiteral g.limit
    pure [source.as .source]) []
  let notes ← g.semicolon false
  pure (clause :: source ++ notes)

/-- Everything that another module exports. -/
def exportedModule (g : Grammar) : Reader (List Node) := do
  char '*'
  maybe do
    g.skip
    g.keyword "as"
    g.skip
    g.moduleName
  let source ← g.fromClause
  let notes ← g.semicolon false
  pure (source :: notes)

/-- The default export. A declaration without a name is an expression. -/
def exportedDefault (g : Grammar) : Reader (List Node) := do
  let word ← g.keywordNode "default"
  let declared : Reader (List Node) := afterNotes (openLayout g.limit) do
    let node ← g.declaration true
    pure [node.as .declaration]
  let valued : Reader (List Node) := afterNotes (openLayout g.limit) do
    let value ← g.valueOf .expression
    let notes ← g.semicolon true
    pure (value.node.as .value :: notes)
  let rest ← declared <|> valued
  pure (word :: rest)

/-- The exports that only typed dialects have. -/
def exportedTyped (g : Grammar) : Reader (List Node) := do
  require g.typed
  firstOf [
    do
      let word ← g.keywordNode "type"
      g.skip
      let rest ← g.exportedNames
      pure (word :: rest),
    do
      let node ← plainNode g.importAlias
      pure [node],
    do
      char '='
      require ((← peek) != some '=')
      let _ ← g.valueOf .expression
      g.semicolon true,
    do
      g.keyword "as"
      g.skip
      g.keyword "namespace"
      g.skip
      let _ ← g.word
      g.semicolon false]

/-- A declaration that is exported. -/
def exportedDeclaration (g : Grammar) : Reader (List Node) := do
  let node ← g.declaration false <|> plainNode (do require g.typed; g.ambientDeclaration)
  pure [node.as .declaration]

/-- An export statement. Where the statement could end after its first word, that word is a name. -/
def exportStatement (g : Grammar) : Reader Node := do
  let start ← here
  let decorated ← g.decorators
  g.keyword "export"
  let notes ← g.gap .expression
  let rest ←
    if 0 < decorated then g.exportedDefault <|> g.exportedDeclaration
    else
      firstOf [
        g.exportedModule, g.exportedDefault, g.exportedTyped, g.exportedDeclaration,
        g.exportedNames]
  nodeFrom start .exportStatement (notes ++ rest)

/-! ## All statements -/

/-- A function or a class at the start of a statement: a declaration if it has a name, given by how
it would begin; else an expression. -/
def unlessNameless (g : Grammar) (beginning : Reader Unit) : Reader Node := do
  if ← sees beginning then
    fun c =>
      match g.declaration true c with
      | .error reach => .error reach
      | .ok found => g.unlessExpression (fun _ => .ok found) c
  else g.expressionStatement

/-- An expression statement that begins with a word of the grammar as a name. A sign that the
grammar puts after that word cannot follow, unless the statement ends before it. -/
def nameStatement (g : Grammar) (signs : List Char) : Reader Node := do
  if ← sees (do
      let _ ← g.word
      let _ ← g.gap .expression
      require ((← peek).any signs.contains)) then failure
  g.expressionStatement

/-- A statement. -/
def statementRule (g : Grammar) : Reader Node := do
  g.skip
  match ← peek with
  | some ';' => plainNode (char ';')
  | some '\x7b' => g.unlessExpression g.blockStatement
  | some '@' =>
    firstOf [
      g.exportStatement,
      g.unlessNameless (do let _ ← g.decorators; g.keyword "class"; g.skip; g.className),
      do require g.typed; g.declaration true]
  | _ => do
    let w := (← g.peekWord).getD ""
    match w with
    | "var" | "const" => g.declaration true
    | "function" => g.unlessNameless (do g.functionHead; let _ ← g.word)
    | "class" => g.unlessNameless (do g.keyword "class"; g.skip; g.className)
    | "async" =>
      firstOf [
        do
          require (← sees do
            g.keyword "async"
            let _ ← g.gap .expression
            g.keyword "function")
          g.unlessNameless (do g.functionHead; let _ ← g.word),
        plainNode g.labelledStatement,
        g.expressionStatement]
    | "if" => plainNode g.ifStatement
    | "switch" => plainNode g.switchStatement
    | "for" => plainNode (g.forInStatement <|> g.forStatement)
    | "while" | "with" => plainNode g.whileStatement
    | "do" => plainNode g.doStatement
    | "try" => plainNode g.tryStatement
    | "break" | "continue" => plainNode g.jumpStatement
    | "debugger" => plainNode do
      g.keyword "debugger"
      let _ ← g.semicolon false
    | "return" => plainNode g.returnStatement
    | "throw" => plainNode g.throwStatement
    | "import" =>
      firstOf [
        g.importStatement,
        plainNode (do require g.typed; g.importAlias),
        g.expressionStatement]
    | "export" =>
      firstOf [
        g.exportStatement,
        plainNode g.labelledStatement,
        g.nameStatement ['*', '\x7b']]
    | "let" =>
      firstOf [
        g.declaration true,
        plainNode g.labelledStatement,
        g.nameStatement ['[', '\x7b']]
    | "type" | "namespace" | "module" =>
      firstOf [
        g.declaration true,
        plainNode g.labelledStatement,
        g.expressionStatement]
    | _ =>
      firstOf [
        do
          require g.typed
          match w with
          | "enum" | "interface" | "abstract" => g.declaration true
          | "declare" => plainNode g.ambientDeclaration
          | _ => failure,
        do
          if g.typed && ["enum", "interface", "abstract"].contains w then failure
          plainNode g.labelledStatement <|> g.expressionStatement]

end Grammar

end RemoteImports.Script
