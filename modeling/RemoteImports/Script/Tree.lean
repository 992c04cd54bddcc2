import RemoteImports.Script.Fault
import RemoteImports.Script.Program

/-!
# Syntax trees

The tree of any source text. The tree of a text that keeps to the grammar has no bad node.
-/

namespace RemoteImports.Script

/-- The syntax tree of a source text. -/
def tree (dialect : Dialect) (source : List Char) : Node :=
  let children := (read? dialect source).getD [faultOf dialect source]
  ⟨.other, none, 0, source.length, children⟩

end RemoteImports.Script
