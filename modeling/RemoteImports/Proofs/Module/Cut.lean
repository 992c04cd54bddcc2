import RemoteImports.Proofs.Module.Nodes
import RemoteImports.Proofs.Module.Source

/-!
# The cut of a source text

A reading cuts the source where its nodes start and stop. The layout and the text of a statement are
the next two pieces, whatever the nodes are (`take_append_leading`), so the line of a statement is
the one where its text starts; and if the nodes follow one another in the source (`Follow`), then
each text is the one of its node, and stands where the node does. `parse_cuts_source` puts this
together.
-/

namespace RemoteImports.Module

open Script

variable {source : List Char} {p : Progress} {nodes pre post : List Node} {node : Node}
  {offset : Nat}

/-- Nodes that follow one another in a text, from an offset on. -/
def Follow (offset : Nat) : List Node → Prop
  | [] => True
  | node :: rest => offset ≤ node.start ∧ node.start ≤ node.stop ∧ Follow node.stop rest

instance decidableFollow : ∀ offset nodes, Decidable (Follow offset nodes)
  | _, [] => isTrue trivial
  | offset, node :: rest =>
    have := decidableFollow node.stop rest
    inferInstanceAs <| Decidable <|
      offset ≤ node.start ∧ node.start ≤ node.stop ∧ Follow node.stop rest

/-! ## What has been cut off -/

theorem take_append_slice {start stop : Nat} (h : start ≤ stop) :
    source.take start ++ slice source start stop = source.take stop := by
  rw [slice, ← List.take_add, Nat.add_sub_cancel' h]

/-- The layout before a statement goes on where the cut was, up to the start of its text. -/
theorem take_append_leading (source : List Char) (p : Progress) (node : Node) :
    source.take p.consumed ++ (statementOfNode source p node).leading.toList =
      source.take (max p.consumed node.start) := by
  rw [statementOfNode, String.toList_ofList]
  exact take_append_slice (Nat.le_max_left _ _)

/-- Layout and text of a statement together are what it moves the cut over. -/
theorem take_consumed_afterStatement (source : List Char) (p : Progress) (node : Node) :
    source.take p.consumed ++ ((statementOfNode source p node).leading ++
        (statementOfNode source p node).text).toList =
      source.take (p.afterStatement source node).consumed := by
  rw [String.toList_append, ← List.append_assoc, take_append_leading, statementOfNode,
    String.toList_ofList]
  exact take_append_slice (Nat.le_max_left _ _)

/-- The statements so far are what has been cut off. -/
theorem take_consumed_after (source : List Char) (p : Progress) (nodes : List Node) :
    source.take p.consumed ++ (sourceOf (statementsOfNodes source p nodes).1).toList =
      source.take (p.after source nodes).consumed := by
  induction nodes generalizing p with
  | nil => simp [statementsOfNodes, sourceOf]
  | cons node rest ih =>
    rw [Progress.after_cons, ← ih]
    by_cases h : node.kind = .comment
    · rw [statementsOfNodes_cons_of_comment h, Progress.step_of_comment h,
        Progress.consumed_afterComment]
    · rw [statementsOfNodes_cons_of_ne h, Progress.step_of_ne h, sourceOf, String.toList_append,
        ← List.append_assoc, take_consumed_afterStatement]

/-! ## Nodes in the order of the text -/

/-- Where nodes follow one another, the cut never gets ahead of the next one. -/
theorem Follow.consumed_le (h : Follow offset (pre ++ node :: post)) (hp : p.consumed ≤ offset) :
    (p.after source pre).consumed ≤ node.start ∧ node.start ≤ node.stop := by
  induction pre generalizing p offset with
  | nil => exact ⟨Nat.le_trans hp h.1, h.2.1⟩
  | cons first pre ih =>
    obtain ⟨hstart, hstop, hrest⟩ := h
    have hlast : p.consumed ≤ first.stop := by omega
    refine ih hrest ?_
    by_cases hfirst : first.kind = .comment
    · -- a comment leaves the cut behind
      rw [Progress.step_of_comment hfirst, Progress.consumed_afterComment]
      exact hlast
    · rw [Progress.step_of_ne hfirst]
      exact Nat.max_le.2 ⟨Nat.max_le.2 ⟨hlast, hstop⟩, Nat.le_refl _⟩

/-- A node that the cut has not reached gives its own text. -/
theorem text_statementOfNode (hstart : p.consumed ≤ node.start) (hstop : node.start ≤ node.stop) :
    (statementOfNode source p node).text = node.text source := by
  rw [statementOfNode, Node.text, Nat.max_eq_right hstart, Nat.max_eq_right hstop]

/-! ## Modules -/

/-- What stands in a source up to the text of a statement, given the node that the statement comes
from. -/
theorem take_start_of_statementNode (source : List Char) (pre : List Node) (node : Node) :
    (sourceOf (statementsOfNodes source .start pre).1 ++
        (statementOfNode source (Progress.start.after source pre) node).leading).toList =
      source.take (max (Progress.start.after source pre).consumed node.start) := by
  rw [String.toList_append, ← take_append_leading, ← take_consumed_after]
  simp [Progress.start]

/-- **Reading a module cuts its source.** Layouts and texts in order, and what follows the last of
them, are the source; a statement stands in the line where its text starts; and every node that is
no comment gives a statement, which has its text and stands in its place. -/
theorem parse_cuts_source {path : FilePath} {source : String} {dialect : Dialect} {m : Module}
    (h : parseAs path source dialect = .ok m) :
    m.source = source ∧
    (∀ before s after, m.statements = before ++ s :: after →
      s.line = (sourceOf before ++ s.leading).toList.count '\n' + 1) ∧
    (Follow 0 (tree dialect source.toList).children →
      m.statements.length = (statementNodes (tree dialect source.toList).children).length ∧
      ∀ before s after, m.statements = before ++ s :: after →
        ∃ node, (statementNodes (tree dialect source.toList).children)[before.length]? = some node ∧
          s.text = node.text source.toList ∧
          (sourceOf before ++ s.leading).toList = source.toList.take node.start) := by
  obtain rfl := ofNodes_of_parseAs h
  refine ⟨by rw [source_ofNodes, String.ofList_toList], fun before s after hs => ?_, fun hfollow =>
    ⟨length_statementsOfNodes _ _ _, fun before s after hs => ?_⟩⟩
  · obtain ⟨pre, node, post, -, -, rfl, rfl⟩ := exists_of_statementsOfNodes_eq hs
    rw [take_start_of_statementNode]
    rfl
  · obtain ⟨pre, node, post, hnodes, hnode, rfl, rfl⟩ := exists_of_statementsOfNodes_eq hs
    rw [hnodes] at hfollow ⊢
    obtain ⟨hstart, hstop⟩ := hfollow.consumed_le (p := .start) (Nat.le_refl _)
    refine ⟨node, ?_, text_statementOfNode hstart hstop, ?_⟩
    · rw [statementNodes_append, length_statementsOfNodes,
        List.getElem?_append_right (Nat.le_refl _), ← List.singleton_append,
        statementNodes_append, statementNodes_of_ne hnode]
      simp
    · rw [take_start_of_statementNode, Nat.max_eq_right hstart]

/-- A source with comments and two statements in one line. -/
def remarkedSource : String := "#!node\n// a\nimport './a'; /* b */ f();\n\n// c\n"

/-- Its module. -/
def remarkedModule : Module where
  path := ⟨"a.js"⟩
  dialect := .javaScript
  statements :=
    [⟨"", "#!node", 1, .other⟩, ⟨"\n// a\n", "import './a';", 3, .importing ⟨"./a", false, []⟩⟩,
      ⟨" /* b */ ", "f();", 3, .other⟩]
  trailing := "\n\n// c\n"

theorem parse_remarkedSource :
    parseAs ⟨"a.js"⟩ remarkedSource .javaScript = .ok remarkedModule := by
  decide +kernel

theorem remarkedModule_cuts_source :
    remarkedModule.source = remarkedSource ∧
      3 = "#!node\n// a\nimport './a'; /* b */ ".toList.count '\n' + 1 ∧
      ∃ node, (statementNodes (tree .javaScript remarkedSource.toList).children)[2]? = some node ∧
        node.text remarkedSource.toList = "f();" := by
  obtain ⟨hsource, hlines, hnodes⟩ := parse_cuts_source parse_remarkedSource
  obtain ⟨-, hnodes⟩ := hnodes (by decide +kernel)
  obtain ⟨node, hnode, htext, -⟩ := hnodes [_, _] _ [] rfl
  exact ⟨hsource, hlines [_, _] _ [] rfl, node, hnode, htext.symm⟩

end RemoteImports.Module
