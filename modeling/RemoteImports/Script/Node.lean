/-!
# Syntax nodes

The tree that reading a source file gives. A node spans a range of character offsets. Its kind tells
apart what the tool asks about; all else is `other`. A place where the text breaks the grammar is a
node of its own: a `fault` spans text that does not belong, a `missing` token stands where it should
have been. `Node.hasBad` asks whether there is such a node in a tree, `Node.firstBad?` looks for the
first of them in reading order.
-/

namespace RemoteImports.Script

/-- What a node is. -/
inductive Kind
  | comment
  | importStatement
  | importClause
  | namespaceImport
  | namedImports
  | importSpecifier
  | exportStatement
  | exportClause
  | exportSpecifier
  /-- A function with a name and a body, declared as a statement. -/
  | functionDeclaration
  | expressionStatement
  | assignment
  /-- A property of an object, named after a dot. -/
  | member
  /-- An object literal. -/
  | object
  /-- An entry of an object literal with a key and a value. -/
  | pair
  /-- An entry of an object literal that is a name alone. -/
  | shorthand
  | identifier
  /-- A plain name in the place of a property. -/
  | propertyName
  | string
  /-- A word of the grammar; unlike all other nodes it has no name of its own. -/
  | keyword (word : String)
  /-- Text that does not belong. -/
  | fault
  /-- A token that is not there. -/
  | missing (token : String)
  | other
  deriving DecidableEq, Inhabited, Repr

/-- Whether a node of this kind counts among the named children of its parent. -/
def Kind.isNamed : Kind → Bool
  | keyword _ => false
  | _ => true

/-- Whether a node of this kind is a place where the text breaks the grammar. -/
def Kind.isBad : Kind → Bool
  | fault | missing _ => true
  | _ => false

/-- The part that a node plays in its parent. -/
inductive Role
  | name
  | otherName
  | source
  | declaration
  | left
  | right
  | object
  | property
  | key
  | value
  deriving DecidableEq, Inhabited, Repr

/-- A node of the syntax tree, over the characters from `start` up to, not including, `stop`. -/
structure Node where
  kind : Kind
  role : Option Role
  start : Nat
  stop : Nat
  children : List Node
  deriving Inhabited, Repr

namespace Node

/-- A node without children. -/
def leaf (kind : Kind) (start stop : Nat) : Node := ⟨kind, none, start, stop, []⟩

/-- A node in a role. -/
def as (node : Node) (role : Role) : Node := { node with role := some role }

/-- The children that are not words of the grammar. -/
def namedChildren (node : Node) : List Node := node.children.filter fun child => child.kind.isNamed

/-- The first child in a role. -/
def child? (node : Node) (role : Role) : Option Node :=
  node.children.find? fun child => child.role == some role

/-- Whether a child is the given word. -/
def hasKeyword (node : Node) (word : String) : Bool :=
  node.children.any fun child => child.kind == .keyword word

mutual

/-- Whether a node or one inside it is bad. -/
def hasBad : Node → Bool
  | ⟨kind, _, _, _, children⟩ => kind.isBad || anyHasBad children

/-- Whether any of some trees has a bad node. -/
def anyHasBad : List Node → Bool
  | [] => false
  | node :: rest => node.hasBad || anyHasBad rest

end

mutual

/-- The first bad node in reading order, an outer one before those inside it. Only nodes that are
said to hold a bad one are entered. -/
def firstBad? (holdsBad : Node → Bool) : Node → Option Node
  | ⟨kind, role, start, stop, children⟩ =>
    if kind.isBad then some ⟨kind, role, start, stop, children⟩
    else if holdsBad ⟨kind, role, start, stop, children⟩ then firstBadOf? holdsBad children
    else none

/-- The first bad node among trees in reading order. -/
def firstBadOf? (holdsBad : Node → Bool) : List Node → Option Node
  | [] => none
  | node :: rest => firstBad? holdsBad node <|> firstBadOf? holdsBad rest

end

end Node

end RemoteImports.Script
