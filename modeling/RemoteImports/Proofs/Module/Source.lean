import RemoteImports.Module.Parse

/-!
# Modules keep their source

A module read from a text gives the text back (`source_of_parse`): the statements with their layout,
and what follows the last of them, are a cut of the text without gaps. Every node at the top of the
tree moves the place up to which the text has been cut, and never back, so this holds whatever the
nodes are (`sourceOf_statementsOfNodes`).
-/

namespace RemoteImports.Module

open Script

theorem sourceOf_append (statements more : List Statement) :
    sourceOf (statements ++ more) = sourceOf statements ++ sourceOf more := by
  induction statements with
  | nil => simp [sourceOf]
  | cons s rest ih => simp [sourceOf, ih, String.append_assoc]

/-! ## Cutting a text -/

variable {source : List Char}

theorem slice_append_drop {start stop : Nat} (h : start ≤ stop) :
    slice source start stop ++ source.drop stop = source.drop start := by
  have hdrop : source.drop stop = (source.drop start).drop (stop - start) := by
    rw [List.drop_drop, Nat.add_sub_cancel' h]
  rw [slice, hdrop, List.take_append_drop]

/-- The layout and the text of a statement are what it moves the cut over. -/
theorem source_statementOfNode (p : Progress) (node : Node) :
    (statementOfNode source p node).leading ++ (statementOfNode source p node).text ++
        String.ofList (source.drop (p.afterStatement source node).consumed) =
      String.ofList (source.drop p.consumed) := by
  have hstart : p.consumed ≤ max p.consumed node.start := Nat.le_max_left _ _
  have hstop : max p.consumed node.start ≤ max (max p.consumed node.start) node.stop :=
    Nat.le_max_left _ _
  simp only [statementOfNode, Progress.afterStatement]
  rw [String.append_assoc, ← String.ofList_append, slice_append_drop hstop,
    ← String.ofList_append, slice_append_drop hstart]

/-- **The pieces are a cut of the text**, from the place where it has been cut so far. -/
theorem sourceOf_statementsOfNodes (p : Progress) (nodes : List Node) :
    sourceOf (statementsOfNodes source p nodes).1 ++
        String.ofList (source.drop (statementsOfNodes source p nodes).2) =
      String.ofList (source.drop p.consumed) := by
  induction nodes generalizing p with
  | nil => simp [statementsOfNodes, sourceOf]
  | cons node rest ih =>
    rw [statementsOfNodes]
    split
    · rw [ih]
      -- a comment is cut off together with the statement after it
      unfold Progress.afterComment
      split <;> rfl
    · rw [sourceOf, String.append_assoc, ih, source_statementOfNode]

/-! ## Modules -/

theorem source_ofNodes (source : List Char) (path : FilePath) (dialect : Dialect)
    (nodes : List Node) : (ofNodes source path dialect nodes).source = String.ofList source :=
  sourceOf_statementsOfNodes .start nodes

theorem ofNodes_of_parseAs {path : FilePath} {source : String} {dialect : Dialect} {m : Module}
    (h : parseAs path source dialect = .ok m) :
    m = ofNodes source.toList path dialect (tree dialect source.toList).children := by
  unfold parseAs ofTree at h
  split at h
  · cases h
  · exact (Except.ok.inj h).symm

theorem ofNodes_of_parse {p : FilePath} {source : String} {m : Module}
    (h : Module.parse p source = .ok m) :
    m = ofNodes source.toList p (.ofPath p) (tree (.ofPath p) source.toList).children :=
  ofNodes_of_parseAs h

/-- **Reading a module loses nothing.** -/
theorem source_of_parse {p : FilePath} {source : String} {m : Module}
    (h : Module.parse p source = .ok m) : m.source = source := by
  rw [ofNodes_of_parse h, source_ofNodes, String.ofList_toList]

end RemoteImports.Module
