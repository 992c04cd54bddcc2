import RemoteImports.Failure
import RemoteImports.Module.OfNodes
import RemoteImports.Script.Tree
import RemoteImports.Text.Size

/-!
# Reading modules

From the text of a source file to its module, or to the place where the text first breaks the
grammar.
-/

namespace RemoteImports

open Script

/-- The number of bytes between the last line feed before an offset and that offset. -/
def columnAt (source : List Char) (offset : Nat) : Nat :=
  Text.byteSize ((source.take offset).reverse.takeWhile (· ≠ '\n'))

/-- The first line of a text, cut after twenty-four characters. -/
def snippet (text : List Char) : String :=
  String.ofList (((Text.lines text).head?.getD []).take 24)

/-- The description of a bad node. -/
def faultOfNode (source : List Char) (bad : Node) : SyntaxFault :=
  let line := rowAt source bad.start + 1
  let column := columnAt source bad.start + 1
  match bad.kind with
  | .missing token => .missing token line column
  | _ => .unexpected (snippet (slice source bad.start bad.stop)) line column

/-- The description of what is wrong with a tree: of its first bad node, if the search finds one. -/
def faultOfTree (holdsBad : Node → Bool) (source : List Char) (root : Node) : SyntaxFault :=
  match root.firstBad? holdsBad with
  | some bad => faultOfNode source bad
  | none => .unplaced

namespace Module

/-- The module of a syntax tree, unless the tree is said to hold a bad node. -/
def ofTree (holdsBad : Node → Bool) (path : FilePath) (dialect : Dialect) (source : List Char)
    (root : Node) : Except Failure Module :=
  if holdsBad root then .error (.parse path (faultOfTree holdsBad source root))
  else .ok (ofNodes source path dialect root.children)

/-- The module of a source text in a dialect. -/
def parseAs (path : FilePath) (source : String) (dialect : Dialect) : Except Failure Module :=
  ofTree Node.hasBad path dialect source.toList (tree dialect source.toList)

/-- The module of a source text in the dialect that its path implies. -/
def parse (path : FilePath) (source : String) : Except Failure Module :=
  parseAs path source (.ofPath path)

end Module

end RemoteImports
