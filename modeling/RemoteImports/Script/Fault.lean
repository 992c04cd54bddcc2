import RemoteImports.Script.Repair

/-!
# Faults

The bad node that stands for a text that breaks the grammar: the first place that its repair
touches.
-/

namespace RemoteImports.Script

/-- The node for a place that a repair touched. -/
def Flaw.node (flaw : Flaw) : Node :=
  match flaw.missing with
  | some name => .leaf (.missing name) flaw.start flaw.start
  | none => .leaf .fault flaw.start flaw.stop

/-- The bad node of a text that breaks the grammar. -/
def faultOf (dialect : Dialect) (source : List Char) : Node :=
  match flawsOf dialect source with
  | flaw :: _ => flaw.node
  | [] => .leaf .fault 0 source.length

end RemoteImports.Script
