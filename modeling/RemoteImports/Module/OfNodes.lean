import RemoteImports.Module.Basic
import RemoteImports.Module.Exposure
import RemoteImports.Script.Node

/-!
# Modules from syntax trees

A module is made from the nodes at the top of a syntax tree. The text is cut where the nodes start
and stop, so that the pieces make up the whole text again, whatever the nodes are. A comment before
a declared function marks it if it carries the tag, unless it starts on the line where the statement
before ends: then it belongs to that statement.
-/

namespace RemoteImports

namespace Script

/-- The characters of a text from one offset up to another. -/
def slice (source : List Char) (start stop : Nat) : List Char :=
  (source.drop start).take (stop - start)

/-- The number of line feeds before an offset. -/
def rowAt (source : List Char) (offset : Nat) : Nat := (source.take offset).count '\n'

/-- The text of a node. -/
def Node.text (source : List Char) (node : Node) : String :=
  String.ofList (slice source node.start node.stop)

/-- A text without the quote at each of its ends. A text without both is kept. -/
def unquote (text : List Char) : List Char :=
  let isQuote (c : Char) : Bool := c == '\'' || c == '"'
  match text with
  | c :: rest => if isQuote c && rest.getLast?.any isQuote then rest.dropLast else text
  | [] => []

/-- The text of a string literal between its quotes, as written. -/
def Node.stringText (source : List Char) (node : Node) : String :=
  String.ofList (unquote (slice source node.start node.stop))

/-- The text of a node without its blanks. -/
def Node.compactText (source : List Char) (node : Node) : String :=
  String.ofList ((slice source node.start node.stop).filter fun c => !Text.isBlank c)

/-- The name that a node gives: the text of a string literal, or the text as written. -/
def Node.nameText (source : List Char) (node : Node) : String :=
  if node.kind == .string then node.stringText source else node.text source

/-- Whether a node has a word that restricts it to types. -/
def Node.isTypeOnly (node : Node) : Bool := node.hasKeyword "type" || node.hasKeyword "typeof"

end Script

open Script

namespace Module

variable (source : List Char)

/-! ## Imports -/

/-- A specifier of an import between braces. The default export has no name of its own, whatever
words come before it. -/
def specifierOfNode (node : Node) : Option ImportSpecifier :=
  (node.child? .name).map fun name =>
    let imported := name.nameText source
    let bound := ((node.child? .otherName).map (Node.text source)).getD imported
    if imported = "default" then .default bound else .named ⟨imported, bound⟩ node.isTypeOnly

/-- The specifiers that one part of an import clause gives. -/
def specifiersOfPart (part : Node) : List ImportSpecifier :=
  match part.kind with
  | .identifier => [.default (part.text source)]
  | .namespaceImport =>
    ((part.namedChildren.find? (·.kind == .identifier)).map fun name =>
      .whole (name.text source)).toList
  | .namedImports =>
    (part.namedChildren.filter (·.kind == .importSpecifier)).filterMap (specifierOfNode source)
  | _ => []

/-- The import statement of a node, if it names a module. -/
def importOfNode (node : Node) : Option ImportDecl :=
  ((node.child? .source).or (node.namedChildren.find? (·.kind == .string))).map fun target => {
    source := target.stringText source
    typeOnly := node.isTypeOnly
    specifiers := (node.namedChildren.filter (·.kind == .importClause)).flatMap fun clause =>
      clause.namedChildren.flatMap (specifiersOfPart source) }

/-! ## Exports -/

/-- What a specifier of an export puts onto the surface. A type has no place there. -/
def surfaceOfSpecifier (node : Node) : Option SurfaceBinding :=
  if node.kind == .exportSpecifier && !node.isTypeOnly then
    (node.child? .name).map fun name =>
      let bound := name.text source
      ⟨((node.child? .otherName).map (Node.nameText source)).getD bound, bound⟩
  else none

/-- The kind of an export statement, given whether a comment before it carries the tag. -/
def exportOfNode (node : Node) (tagged : Bool) : StatementKind :=
  if node.hasKeyword "default" then .other
  else
    match node.child? .declaration with
    | some decl =>
      match decl.kind == .functionDeclaration, decl.child? .name with
      | true, some name =>
        let noted := node.children.any fun child =>
          child.kind == .comment && Exposure.marks (child.text source)
        .exportFunction ⟨name.text source, tagged || noted⟩
      | _, _ => .other
    | none =>
      if node.hasKeyword "type" || (node.child? .source).isSome then .other
      else
        match (node.children.filter (·.kind == .exportClause)).getLast? with
        | some clause => .surface (clause.namedChildren.filterMap (surfaceOfSpecifier source))
        | none => .other

/-! ## Assignments to the surface -/

/-- What an entry of an object puts onto the surface, if the object becomes the surface. -/
def surfaceOfEntry (entry : Node) : Option SurfaceBinding :=
  match entry.kind with
  | .shorthand => some ⟨entry.text source, entry.text source⟩
  | .pair =>
    match entry.child? .key, entry.child? .value with
    | some key, some value =>
      if value.kind == .identifier then
        match key.kind with
        | .propertyName | .string => some ⟨key.nameText source, value.text source⟩
        | _ => none
      else none
    | _, _ => none
  | _ => none

/-- What an assignment puts onto the surface: a name as a property of `exports`, or an object in the
place of `module.exports`. -/
def surfaceOfAssignment (assignment : Node) : Option (List SurfaceBinding) :=
  match assignment.child? .left, assignment.child? .right with
  | some left, some right =>
    if left.kind == .member then
      match left.child? .object, left.child? .property with
      | some object, some property =>
        let holder := object.compactText source
        if holder = "exports" ∨ holder = "module.exports" then
          if right.kind == .identifier then some [⟨property.text source, right.text source⟩]
          else none
        else if left.compactText source = "module.exports" ∧ right.kind == .object then
          some (right.namedChildren.filterMap (surfaceOfEntry source))
        else none
      | _, _ => none
    else none
  | _, _ => none

/-- What an expression statement puts onto the surface. -/
def surfaceOfNode (node : Node) : Option (List SurfaceBinding) :=
  node.namedChildren.head?.bind fun first =>
    if first.kind == .assignment then surfaceOfAssignment source first else none

/-! ## Statements -/

/-- The kind of a statement, given whether a comment before it carries the tag. -/
def kindOfNode (node : Node) (tagged : Bool) : StatementKind :=
  match node.kind with
  | .importStatement => ((importOfNode source node).map .importing).getD .other
  | .functionDeclaration =>
    ((node.child? .name).map fun name => .function ⟨name.text source, tagged⟩).getD .other
  | .exportStatement => exportOfNode source node tagged
  | .expressionStatement => ((surfaceOfNode source node).map .surface).getD .other
  | _ => .other

/-- What is known between two nodes at the top of a tree. -/
structure Progress where
  /-- The offset up to which the text has been cut. -/
  consumed : Nat
  /-- Whether a comment since the last statement carries the tag. -/
  tagged : Bool
  /-- The row where the last statement ends. -/
  lastRow : Option Nat
  deriving Inhabited, Repr

/-- Before the first node. -/
def Progress.start : Progress := ⟨0, false, none⟩

/-- After a comment: it counts for the next statement unless it starts on the row where the last one
ends. -/
def Progress.afterComment (p : Progress) (node : Node) : Progress :=
  if p.lastRow = some (rowAt source node.start) then p
  else { p with tagged := p.tagged || Exposure.marks (node.text source) }

/-- After a statement. -/
def Progress.afterStatement (p : Progress) (node : Node) : Progress :=
  ⟨max (max p.consumed node.start) node.stop, false, some (rowAt source node.stop)⟩

/-- The statement of a node. What stands between the last statement and this one leads it. -/
def statementOfNode (p : Progress) (node : Node) : Statement :=
  let start := max p.consumed node.start
  { leading := String.ofList (slice source p.consumed start)
    text := String.ofList (slice source start (max start node.stop))
    line := rowAt source start + 1
    kind := kindOfNode source node p.tagged }

/-- The statements of a list of nodes, and where the text after the last of them starts. -/
def statementsOfNodes (p : Progress) : List Node → List Statement × Nat
  | [] => ([], p.consumed)
  | node :: rest =>
    if node.kind == .comment then statementsOfNodes (p.afterComment source node) rest
    else
      let (statements, stop) := statementsOfNodes (p.afterStatement source node) rest
      (statementOfNode source p node :: statements, stop)

/-- The module of the nodes at the top of a syntax tree. -/
def ofNodes (path : FilePath) (dialect : Dialect) (nodes : List Node) : Module :=
  let (statements, stop) := statementsOfNodes source .start nodes
  ⟨path, dialect, statements, String.ofList (source.drop stop)⟩

end Module

end RemoteImports
