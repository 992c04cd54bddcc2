import Mathlib.Data.List.Basic
import RemoteImports.Module.OfNodes

/-!
# Statements and nodes

The statements of a module come from the nodes at the top of a tree that are no comments, one from
each and in their order. What a statement is depends on its node and on what the reading knows when
it gets there (`Progress.after`), and on no node behind it: `statementsOfNodes_append` cuts a
reading in two, and `exists_of_statementsOfNodes_eq` and `getElem?_statementsOfNodes` find the node
of a statement and the statement of a node.
-/

namespace RemoteImports.Module

open Script

variable {source : List Char} {p : Progress} {nodes pre post : List Node} {node : Node}

/-- The nodes that become statements: all that are no comments. -/
def statementNodes (nodes : List Node) : List Node := nodes.filter (·.kind ≠ .comment)

theorem statementNodes_append (nodes more : List Node) :
    statementNodes (nodes ++ more) = statementNodes nodes ++ statementNodes more :=
  List.filter_append ..

theorem statementNodes_of_comment (h : node.kind = .comment) : statementNodes [node] = [] := by
  simp [statementNodes, h]

theorem statementNodes_of_ne (h : node.kind ≠ .comment) : statementNodes [node] = [node] := by
  simp [statementNodes, h]

/-! ## Progress -/

/-- After a node. -/
def Progress.step (source : List Char) (p : Progress) (node : Node) : Progress :=
  if node.kind = .comment then p.afterComment source node else p.afterStatement source node

/-- After some nodes. -/
def Progress.after (p : Progress) (source : List Char) (nodes : List Node) : Progress :=
  nodes.foldl (Progress.step source) p

namespace Progress

@[simp] theorem after_nil : p.after source [] = p := rfl

@[simp] theorem after_cons :
    p.after source (node :: nodes) = (p.step source node).after source nodes :=
  rfl

theorem after_append : p.after source (pre ++ post) = (p.after source pre).after source post :=
  List.foldl_append

theorem step_of_comment (h : node.kind = .comment) :
    p.step source node = p.afterComment source node :=
  if_pos h

theorem step_of_ne (h : node.kind ≠ .comment) : p.step source node = p.afterStatement source node :=
  if_neg h

/-- A comment is cut off together with the statement after it. -/
theorem consumed_afterComment : (p.afterComment source node).consumed = p.consumed := by
  unfold afterComment
  split <;> rfl

end Progress

/-! ## Readings -/

theorem statementsOfNodes_cons_of_comment (h : node.kind = .comment) :
    statementsOfNodes source p (node :: nodes) =
      statementsOfNodes source (p.step source node) nodes := by
  rw [statementsOfNodes, Progress.step_of_comment h, if_pos (by simp [h])]

theorem statementsOfNodes_cons_of_ne (h : node.kind ≠ .comment) :
    (statementsOfNodes source p (node :: nodes)).1 =
      statementOfNode source p node :: (statementsOfNodes source (p.step source node) nodes).1 := by
  rw [statementsOfNodes, Progress.step_of_ne h, if_neg (by simp [h])]

/-- **A reading goes on where it stands**, whatever it has read before. -/
theorem statementsOfNodes_append :
    (statementsOfNodes source p (pre ++ post)).1 =
      (statementsOfNodes source p pre).1 ++
        (statementsOfNodes source (p.after source pre) post).1 := by
  induction pre generalizing p with
  | nil => rfl
  | cons node pre ih =>
    rw [List.cons_append, Progress.after_cons]
    by_cases h : node.kind = .comment
    · rw [statementsOfNodes_cons_of_comment h, statementsOfNodes_cons_of_comment h, ih]
    · rw [statementsOfNodes_cons_of_ne h, statementsOfNodes_cons_of_ne h, ih, List.cons_append]

/-- Every node that is no comment gives one statement. -/
theorem length_statementsOfNodes (source : List Char) (p : Progress) (nodes : List Node) :
    (statementsOfNodes source p nodes).1.length = (statementNodes nodes).length := by
  induction nodes generalizing p with
  | nil => rfl
  | cons node rest ih =>
    rw [← List.singleton_append, statementNodes_append]
    by_cases h : node.kind = .comment
    · rw [List.singleton_append, statementsOfNodes_cons_of_comment h, ih,
        statementNodes_of_comment h, List.nil_append]
    · rw [List.singleton_append, statementsOfNodes_cons_of_ne h, statementNodes_of_ne h,
        List.length_cons, ih, List.singleton_append, List.length_cons]

/-- **The node of a statement**: what stands before the node gives the statements before this
one. -/
theorem exists_of_statementsOfNodes_eq {before after : List Statement} {s : Statement}
    (h : (statementsOfNodes source p nodes).1 = before ++ s :: after) :
    ∃ pre node post, nodes = pre ++ node :: post ∧ node.kind ≠ .comment ∧
      (statementsOfNodes source p pre).1 = before ∧
      s = statementOfNode source (p.after source pre) node := by
  induction nodes generalizing p before with
  | nil => simp [statementsOfNodes] at h
  | cons first rest ih =>
    by_cases hfirst : first.kind = .comment
    · rw [statementsOfNodes_cons_of_comment hfirst] at h
      obtain ⟨pre, node, post, rfl, hnode, hbefore, hs⟩ := ih h
      refine ⟨first :: pre, node, post, rfl, hnode, ?_, hs⟩
      rw [statementsOfNodes_cons_of_comment hfirst, hbefore]
    · rw [statementsOfNodes_cons_of_ne hfirst] at h
      rcases List.cons_eq_append_iff.1 h with ⟨rfl, hcons⟩ | ⟨before', rfl, hrest⟩
      · cases hcons
        exact ⟨[], first, rest, rfl, hfirst, rfl, rfl⟩
      · obtain ⟨pre, node, post, rfl, hnode, hbefore, hs⟩ := ih hrest
        refine ⟨first :: pre, node, post, rfl, hnode, ?_, hs⟩
        rw [statementsOfNodes_cons_of_ne hfirst, hbefore]

/-- **The statement of a node** stands behind those of the nodes before it. -/
theorem getElem?_statementsOfNodes {j : Nat} (hj : nodes[j]? = some node)
    (hnode : node.kind ≠ .comment) :
    (statementsOfNodes source p nodes).1[(statementNodes (nodes.take j)).length]? =
      some (statementOfNode source (p.after source (nodes.take j)) node) := by
  obtain ⟨hlt, rfl⟩ := List.getElem?_eq_some_iff.1 hj
  have hsplit : nodes = nodes.take j ++ nodes[j] :: nodes.drop (j + 1) := by
    rw [← List.drop_eq_getElem_cons hlt, List.take_append_drop]
  have hlength := length_statementsOfNodes source p (nodes.take j)
  conv_lhs => rw [hsplit, statementsOfNodes_append, statementsOfNodes_cons_of_ne hnode]
  rw [List.getElem?_append_right (by simp [hlength])]
  simp [hlength]

end RemoteImports.Module
