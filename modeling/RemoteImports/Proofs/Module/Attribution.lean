import Mathlib.Data.List.Induction
import RemoteImports.Proofs.Module.Nodes
import RemoteImports.Script.Tree

/-!
# Whom a comment marks

A comment counts for the next statement, unless it starts on the row where the statement before it
ends (`CountsFor`). So it counts for at most one statement, and for none behind another one
(`CountsFor.unique`). A declared function is exposed exactly if a comment with the tag counts for
it, or stands inside of its export (`exposed_iff_marked`).
-/

namespace RemoteImports.Module

open Script

variable {source : List Char} {p : Progress} {nodes : List Node} {node note : Node} {i j : Nat}

/-! ## Comments and the statements they count for -/

/-- The last statement among some nodes. -/
def lastStatement? (nodes : List Node) : Option Node := (statementNodes nodes).getLast?

/-- The node at a position is a comment that counts for the statement at another position: only
comments stand between, and the comment does not trail the statement before it. -/
structure CountsFor (source : List Char) (nodes : List Node) (i j : Nat) (note : Node) : Prop where
  note_at : nodes[i]? = some note
  lt : i < j
  comments : ∀ other ∈ (nodes.take j).drop i, other.kind = .comment
  row_ne : ∀ last, lastStatement? (nodes.take i) = some last →
    rowAt source last.stop ≠ rowAt source note.start

/-- A comment with the tag counts for the node at a position. -/
def IsMarked (source : List Char) (nodes : List Node) (j : Nat) : Prop :=
  ∃ i note, CountsFor source nodes i j note ∧ Exposure.marks (note.text source)

/-- Nothing but comments stands between a comment and a position that it counts for. -/
theorem CountsFor.kind_eq (h : CountsFor source nodes i j note) {k : Nat} (hi : i ≤ k) (hj : k < j)
    (hk : nodes[k]? = some node) : node.kind = .comment := by
  refine h.comments node (List.mem_of_getElem? (i := k - i) ?_)
  rw [List.getElem?_drop, Nat.add_sub_cancel' hi, List.getElem?_take_of_lt hj, hk]

/-- **A comment counts for one statement only.** -/
theorem CountsFor.unique {j' : Nat} {node' note' : Node} (h : CountsFor source nodes i j note)
    (h' : CountsFor source nodes i j' note') (hj : nodes[j]? = some node)
    (hj' : nodes[j']? = some node') (hnode : node.kind ≠ .comment)
    (hnode' : node'.kind ≠ .comment) : j = j' := by
  rcases Nat.lt_trichotomy j j' with hlt | heq | hlt
  · exact absurd (h'.kind_eq (Nat.le_of_lt h.lt) hlt hj) hnode
  · exact heq
  · exact absurd (h.kind_eq (Nat.le_of_lt h'.lt) hlt hj') hnode'

theorem lastStatement?_concat_of_comment (h : node.kind = .comment) :
    lastStatement? (nodes ++ [node]) = lastStatement? nodes := by
  rw [lastStatement?, statementNodes_append, statementNodes_of_comment h, List.append_nil,
    lastStatement?]

theorem lastStatement?_concat_of_ne (h : node.kind ≠ .comment) :
    lastStatement? (nodes ++ [node]) = some node := by
  rw [lastStatement?, statementNodes_append, statementNodes_of_ne h, List.getLast?_concat]

theorem take_succ_of_getElem? (hj : nodes[j]? = some node) :
    nodes.take (j + 1) = nodes.take j ++ [node] := by
  rw [List.take_add_one, hj, Option.toList_some]

theorem drop_take_succ (hj : nodes[j]? = some node) (hi : i ≤ j) :
    (nodes.take (j + 1)).drop i = (nodes.take j).drop i ++ [node] := by
  have hlt := (List.getElem?_eq_some_iff.1 hj).1
  rw [take_succ_of_getElem? hj, List.drop_append_of_le_length]
  rw [List.length_take]
  omega

/-- What counts for the position behind a comment counts for the comment's own position, or is the
comment. -/
theorem countsFor_succ_iff (hj : nodes[j]? = some node) (hnode : node.kind = .comment) :
    CountsFor source nodes i (j + 1) note ↔
      CountsFor source nodes i j note ∨
        i = j ∧ note = node ∧ ∀ last, lastStatement? (nodes.take j) = some last →
          rowAt source last.stop ≠ rowAt source node.start := by
  constructor
  · intro h
    rcases Nat.lt_succ_iff_lt_or_eq.1 h.lt with hlt | rfl
    · refine .inl ⟨h.note_at, hlt, fun other hother => h.comments other ?_, h.row_ne⟩
      rw [drop_take_succ hj (Nat.le_of_lt hlt)]
      exact List.mem_append_left _ hother
    · obtain rfl := Option.some.inj (h.note_at.symm.trans hj)
      exact .inr ⟨rfl, rfl, h.row_ne⟩
  · rintro (h | ⟨rfl, rfl, hrow⟩)
    · refine ⟨h.note_at, Nat.lt_succ_of_lt h.lt, fun other hother => ?_, h.row_ne⟩
      rw [drop_take_succ hj (Nat.le_of_lt h.lt), List.mem_append, List.mem_singleton] at hother
      rcases hother with hother | rfl
      · exact h.comments other hother
      · exact hnode
    · refine ⟨hj, Nat.lt_succ_self i, fun other hother => ?_, hrow⟩
      rw [drop_take_succ hj (Nat.le_refl i), List.drop_take_self, List.nil_append,
        List.mem_singleton] at hother
      rw [hother, hnode]

/-! ## What the reading knows -/

theorem Progress.tagged_afterComment_iff :
    (p.afterComment source node).tagged ↔
      p.tagged ∨
        p.lastRow ≠ some (rowAt source node.start) ∧ Exposure.marks (node.text source) := by
  unfold afterComment
  split
  · rename_i hrow
    simp [hrow]
  · rename_i hrow
    simp [hrow]

theorem Progress.lastRow_afterComment : (p.afterComment source node).lastRow = p.lastRow := by
  unfold afterComment
  split <;> rfl

/-- The row that a reading remembers is the one where the last statement ends. -/
theorem lastRow_after (source : List Char) (nodes : List Node) :
    (Progress.start.after source nodes).lastRow =
      (lastStatement? nodes).map fun last => rowAt source last.stop := by
  induction nodes using List.reverseRecOn with
  | nil => rfl
  | append_singleton nodes node ih =>
    rw [Progress.after_append, Progress.after_cons, Progress.after_nil]
    by_cases h : node.kind = .comment
    · rw [Progress.step_of_comment h, Progress.lastRow_afterComment, ih,
        lastStatement?_concat_of_comment h]
    · rw [Progress.step_of_ne h, lastStatement?_concat_of_ne h]
      rfl

/-- **The tag that a reading carries** is that of a comment which counts for the next node. -/
theorem tagged_after_iff (hj : j ≤ nodes.length) :
    (Progress.start.after source (nodes.take j)).tagged ↔ IsMarked source nodes j := by
  induction j with
  | zero =>
    refine iff_of_false (by simp [Progress.start]) ?_
    rintro ⟨i, note, h, -⟩
    exact Nat.not_lt_zero i h.lt
  | succ j ih =>
    have hnode : nodes[j]? = some nodes[j] := List.getElem?_eq_getElem hj
    rw [take_succ_of_getElem? hnode, Progress.after_append, Progress.after_cons, Progress.after_nil]
    by_cases h : nodes[j].kind = .comment
    · rw [Progress.step_of_comment h, Progress.tagged_afterComment_iff, ih (Nat.le_of_succ_le hj),
        lastRow_after]
      simp only [IsMarked, countsFor_succ_iff hnode h, or_and_right, exists_or]
      refine or_congr_right ?_
      constructor
      · rintro ⟨hrow, hmarks⟩
        exact ⟨j, _, ⟨rfl, rfl, fun last hlast hsame => hrow (by simp [hlast, hsame])⟩, hmarks⟩
      · rintro ⟨i, note, ⟨rfl, rfl, hrow⟩, hmarks⟩
        refine ⟨fun hsame => ?_, hmarks⟩
        obtain ⟨last, hlast, hsame⟩ := Option.map_eq_some_iff.1 hsame
        exact hrow last hlast hsame
    · -- nothing counts for what stands behind a statement
      rw [Progress.step_of_ne h]
      refine iff_of_false (by simp [Progress.afterStatement]) ?_
      rintro ⟨i, note, hcounts, -⟩
      exact h (hcounts.kind_eq (Nat.le_of_lt_succ hcounts.lt) (Nat.lt_succ_self j) hnode)

/-! ## Functions -/

/-- A node declares a function with a name. -/
structure Declares (node name : Node) : Prop where
  kind_eq : node.kind = .functionDeclaration
  name_eq : node.child? .name = some name

/-- A node exports a function with a name, and not as the default. -/
structure Exports (node name : Node) : Prop where
  kind_eq : node.kind = .exportStatement
  not_default : node.hasKeyword "default" = false
  declares : ∃ decl, node.child? .declaration = some decl ∧ Declares decl name

theorem kindOfNode_of_declares {name : Node} (h : Declares node name) (tagged : Bool) :
    kindOfNode source node tagged = .function ⟨name.text source, tagged⟩ := by
  rw [kindOfNode, h.kind_eq, h.name_eq]
  rfl

theorem kindOfNode_of_exports {name : Node} (h : Exports node name) (tagged : Bool) :
    kindOfNode source node tagged =
      .exportFunction ⟨name.text source, tagged || node.children.any fun child =>
        child.kind == .comment && Exposure.marks (child.text source)⟩ := by
  obtain ⟨decl, hdecl, hkind, hname⟩ := h.declares
  simp [kindOfNode, exportOfNode, h.kind_eq, h.not_default, hdecl, hkind, hname]

theorem statement_of_node (source : List Char) (path : FilePath) (dialect : Dialect)
    (hj : nodes[j]? = some node) (hnode : node.kind ≠ .comment) :
    ∃ s, (ofNodes source path dialect nodes).statements[(statementNodes (nodes.take j)).length]? =
        some s ∧
      s.kind = kindOfNode source node (Progress.start.after source (nodes.take j)).tagged :=
  ⟨_, getElem?_statementsOfNodes hj hnode, rfl⟩

/-- **Whom a comment marks.** A declared function is exposed exactly if a comment with the tag
counts for it, an exported one also if such a comment stands inside of its export. A comment counts
for one statement only, across no other one, and not if it trails one. -/
theorem exposed_iff_marked (source : List Char) (path : FilePath) (dialect : Dialect)
    (nodes : List Node) :
    (∀ j node name, nodes[j]? = some node → Declares node name →
      ∃ s exposed,
        (ofNodes source path dialect nodes).statements[(statementNodes (nodes.take j)).length]? =
          some s ∧
        s.kind = .function ⟨name.text source, exposed⟩ ∧
        (exposed ↔ IsMarked source nodes j)) ∧
    (∀ j node name, nodes[j]? = some node → Exports node name →
      ∃ s exposed,
        (ofNodes source path dialect nodes).statements[(statementNodes (nodes.take j)).length]? =
          some s ∧
        s.kind = .exportFunction ⟨name.text source, exposed⟩ ∧
        (exposed ↔ IsMarked source nodes j ∨
          ∃ note ∈ node.children, note.kind = .comment ∧ Exposure.marks (note.text source))) ∧
    (∀ i j j' note node node', CountsFor source nodes i j note → CountsFor source nodes i j' note →
      nodes[j]? = some node → nodes[j']? = some node' → node.kind ≠ .comment →
      node'.kind ≠ .comment → j = j') ∧
    (∀ i j k note node, CountsFor source nodes i j note → i ≤ k → k < j → nodes[k]? = some node →
      node.kind = .comment) ∧
    ∀ i j note last, lastStatement? (nodes.take i) = some last →
      rowAt source last.stop = rowAt source note.start → ¬ CountsFor source nodes i j note := by
  refine ⟨fun j node name hj hname => ?_, fun j node name hj hname => ?_,
    fun i j j' note node node' h h' hj hj' => h.unique h' hj hj',
    fun i j k note node h hi hk hnode => h.kind_eq hi hk hnode,
    fun i j note last hlast hrow h => h.row_ne last hlast hrow⟩
  · obtain ⟨s, hs, hkind⟩ := statement_of_node source path dialect hj (by simp [hname.kind_eq])
    rw [kindOfNode_of_declares hname] at hkind
    exact ⟨s, _, hs, hkind, tagged_after_iff (Nat.le_of_lt (List.getElem?_eq_some_iff.1 hj).1)⟩
  · obtain ⟨s, hs, hkind⟩ := statement_of_node source path dialect hj (by simp [hname.kind_eq])
    rw [kindOfNode_of_exports hname] at hkind
    refine ⟨s, _, hs, hkind, ?_⟩
    rw [Bool.or_eq_true, List.any_eq_true,
      tagged_after_iff (Nat.le_of_lt (List.getElem?_eq_some_iff.1 hj).1)]
    simp [IsMarked]

example :
    let source := "a(); // @expose\n// b\nfunction f() {}".toList
    (ofNodes source ⟨"a.js"⟩ .javaScript (tree .javaScript source).children).statements.map
      (·.kind) = [.other, .function ⟨"f", false⟩] := by
  decide +kernel

end RemoteImports.Module
