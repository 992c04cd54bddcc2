import RemoteImports.Script.Grammar.Module

/-!
# Programs

The grammar with its knot tied, and the reading of a whole source text. The tree of an accepted text
holds its statements and comments in order. The tree of any other text holds a bad node.
-/

namespace RemoteImports.Script

open Reader

/-- The grammar to a depth of nesting. -/
def grammar (dialect : Dialect) (limit : Nat) : Nat → Grammar
  | 0 => ⟨dialect, limit, fun _ => failure, fun _ => failure, failure, failure⟩
  | depth + 1 =>
    let g := grammar dialect limit depth
    ⟨dialect, limit, g.expressionRule, g.typeRule, g.statementRule, g.markupRule⟩

/-- The first line of a file that says what runs it. -/
def interpreterLine : Reader Node := do
  let start ← here
  text "#!"
  let _ ← takeWhile (· != '\n')
  pure (.leaf .other start (← here))

/-- Statements and comments up to the end of the text. -/
def statements (g : Grammar) : Nat → Reader (List Node)
  | 0 => failure
  | limit + 1 => do
    let notes ← openLayout g.limit
    if ← succeeded atEnd then pure notes
    else
      let first ← g.statement
      let rest ← statements g limit
      pure (notes ++ first :: rest)

/-- A whole source text. -/
def program (g : Grammar) : Reader (List Node) := do
  let notes ← openLayout g.limit
  let first ← optional interpreterLine
  let rest ← statements g (g.limit + 1)
  pure (notes ++ first.toList ++ rest)

/-- The statements and comments of a source text; where it breaks the grammar, the farthest place
that any rule reached. Each level of nesting takes at least one character in two rounds of the
knot. -/
def reading (dialect : Dialect) (source : List Char) : Except Nat (List Node) :=
  let limit := source.length + 1
  let g := grammar dialect limit (3 * limit + 16)
  (program g (.start source)).map (·.1)

/-- The statements and comments of a source text, if it keeps to the grammar. -/
def read? (dialect : Dialect) (source : List Char) : Option (List Node) :=
  (reading dialect source).toOption

end RemoteImports.Script
