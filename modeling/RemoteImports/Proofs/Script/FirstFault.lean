import Mathlib.Data.List.Basic
import RemoteImports.Module.Parse

/-!
# The first fault of a text

A text that breaks the grammar is described by the first bad node of its tree, the first one in
reading order where a node comes before those inside it (`Node.preorder`). The search passes over
every node that is said to hold no bad one. If what is said of the nodes is true of the whole tree
(`Node.TellsBad`), nothing is missed that way: the search finds what a look at all nodes in order
finds (`firstBad?_eq_find?`). So a text that is refused is always refused with a place to show for
it (`refused_at_first_fault`).
-/

namespace RemoteImports

namespace Script.Node

variable {holdsBad : Node → Bool} {root node bad : Node} {nodes : List Node}

/-! ## Reading order -/

mutual

/-- A node and all nodes inside it in reading order, an outer one before those inside it. -/
def preorder : Node → List Node
  | ⟨kind, role, start, stop, children⟩ =>
    ⟨kind, role, start, stop, children⟩ :: preorderOf children

/-- The nodes of some trees in reading order. -/
def preorderOf : List Node → List Node
  | [] => []
  | node :: rest => preorder node ++ preorderOf rest

end

theorem preorder_eq (node : Node) : node.preorder = node :: preorderOf node.children := by
  cases node
  rw [preorder]

theorem mem_preorderOf_iff : node ∈ preorderOf nodes ↔ ∃ child ∈ nodes, node ∈ child.preorder := by
  induction nodes with
  | nil => simp [preorderOf]
  | cons child rest ih => simp [preorderOf, ih]

/-- Whether what is said of the nodes of a tree is true: a node is said to hold a bad one if it is
bad or one inside it is. -/
def TellsBad (holdsBad : Node → Bool) (root : Node) : Prop :=
  ∀ node ∈ root.preorder, holdsBad node = true ↔ ∃ bad ∈ node.preorder, bad.kind.isBad = true

theorem TellsBad.self (h : TellsBad holdsBad root) :
    holdsBad root = true ↔ ∃ bad ∈ root.preorder, bad.kind.isBad = true :=
  h root (by rw [preorder_eq]; exact List.mem_cons_self)

theorem TellsBad.child (h : TellsBad holdsBad root) :
    ∀ child ∈ root.children, TellsBad holdsBad child := by
  intro child hchild node hnode
  refine h node ?_
  rw [preorder_eq]
  exact List.mem_cons_of_mem _ (mem_preorderOf_iff.2 ⟨child, hchild, hnode⟩)

/-! ## The search -/

mutual

/-- **Passing over nodes misses nothing**: the search finds what a look at all nodes in reading
order finds. -/
theorem firstBad?_eq_find? :
    ∀ root : Node, TellsBad holdsBad root →
      root.firstBad? holdsBad = root.preorder.find? (·.kind.isBad)
  | ⟨kind, role, start, stop, children⟩, h => by
    rw [firstBad?, preorder, List.find?_cons]
    by_cases hkind : kind.isBad = true
    · rw [if_pos hkind, hkind]
    · rw [if_neg hkind, eq_false_of_ne_true hkind]
      by_cases hholds : holdsBad ⟨kind, role, start, stop, children⟩ = true
      · rw [if_pos hholds]
        exact firstBadOf?_eq_find? children h.child
      · -- a node that is passed over has nothing inside it to be found
        rw [if_neg hholds, eq_comm, List.find?_eq_none]
        intro bad hbad hisBad
        refine hholds (h.self.2 ⟨bad, ?_, hisBad⟩)
        rw [preorder]
        exact List.mem_cons_of_mem _ hbad

theorem firstBadOf?_eq_find? :
    ∀ nodes : List Node, (∀ node ∈ nodes, TellsBad holdsBad node) →
      firstBadOf? holdsBad nodes = (preorderOf nodes).find? (·.kind.isBad)
  | [], _ => rfl
  | node :: rest, h => by
    rw [firstBadOf?, preorderOf, List.find?_append,
      firstBad?_eq_find? node (h node List.mem_cons_self),
      firstBadOf?_eq_find? rest fun other hother => h other (List.mem_cons_of_mem node hother)]
    cases node.preorder.find? (·.kind.isBad) <;> rfl

end

/-- The first bad node of a tree: nothing before it in reading order is bad. -/
def IsFirstBad (root bad : Node) : Prop :=
  bad.kind.isBad = true ∧ ∃ before after, root.preorder = before ++ bad :: after ∧
    ∀ node ∈ before, node.kind.isBad = false

theorem firstBad?_eq_some_iff (h : TellsBad holdsBad root) :
    root.firstBad? holdsBad = some bad ↔ IsFirstBad root bad := by
  rw [firstBad?_eq_find? root h, List.find?_eq_some_iff_append, IsFirstBad]
  simp

theorem exists_firstBad? (h : TellsBad holdsBad root) (hroot : holdsBad root = true) :
    ∃ bad, root.firstBad? holdsBad = some bad := by
  rw [← Option.isSome_iff_exists, firstBad?_eq_find? root h, List.find?_isSome]
  exact h.self.1 hroot

/-! ## What the tree says itself -/

mutual

theorem hasBad_iff :
    ∀ node : Node, node.hasBad = true ↔ ∃ bad ∈ node.preorder, bad.kind.isBad = true
  | ⟨kind, role, start, stop, children⟩ => by
    rw [hasBad, preorder, Bool.or_eq_true, anyHasBad_iff children]
    simp only [List.mem_cons, exists_eq_or_imp]

theorem anyHasBad_iff :
    ∀ nodes : List Node, anyHasBad nodes = true ↔ ∃ bad ∈ preorderOf nodes, bad.kind.isBad = true
  | [] => by simp [anyHasBad, preorderOf]
  | node :: rest => by
    rw [anyHasBad, preorderOf, Bool.or_eq_true, hasBad_iff node, anyHasBad_iff rest]
    simp only [List.mem_append, or_and_right, exists_or]

end

theorem tellsBad_hasBad (root : Node) : TellsBad hasBad root := fun node _ => hasBad_iff node

end Script.Node

namespace Module

open Script

variable {holdsBad : Node → Bool} {root bad : Node} {source : List Char} {path : FilePath}
  {dialect : Dialect} {failure : Failure}

/-! ## The message -/

/-- What the description of a bad node says of it besides its place. -/
def faultText (source : List Char) (bad : Node) : String :=
  match bad.kind with
  | .missing token => "missing \x60" ++ token ++ "\x60"
  | _ => "unexpected \x60" ++ snippet (slice source bad.start bad.stop) ++ "\x60"

/-- A failure that shows a bad node of a source text: the message ends in the line and the column of
the node, both counted from one. -/
structure Shows (path : FilePath) (source : List Char) (bad : Node) (failure : Failure) : Prop where
  eq_parse : failure = .parse path (faultOfNode source bad)
  ne_unplaced : failure ≠ .parse path .unplaced
  message_eq : failure.message =
    "File " ++ path.text ++ " parse error: " ++ faultText source bad ++
      " at line " ++ toString (rowAt source bad.start + 1) ++
      ", column " ++ toString (columnAt source bad.start + 1)

theorem faultOfNode_ne_unplaced (source : List Char) (bad : Node) :
    faultOfNode source bad ≠ .unplaced := by
  unfold faultOfNode
  cases bad.kind <;> exact nofun

theorem faultOfNode_of_missing {token : String} (h : bad.kind = .missing token) :
    faultOfNode source bad =
      .missing token (rowAt source bad.start + 1) (columnAt source bad.start + 1) := by
  rw [faultOfNode, h]

theorem faultOfNode_of_ne_missing (h : ∀ token, bad.kind ≠ .missing token) :
    faultOfNode source bad =
      .unexpected (snippet (slice source bad.start bad.stop)) (rowAt source bad.start + 1)
        (columnAt source bad.start + 1) := by
  unfold faultOfNode
  split
  case h_1 token hkind => exact absurd hkind (h token)
  case h_2 => rfl

theorem message_faultOfNode (source : List Char) (bad : Node) :
    (faultOfNode source bad).message =
      faultText source bad ++ " at line " ++ toString (rowAt source bad.start + 1) ++
        ", column " ++ toString (columnAt source bad.start + 1) := by
  -- the closing quote and what follows it are one piece of the message
  have hquote (start : String) : start ++ "\x60" ++ " at line " = start ++ "\x60 at line " := by
    rw [String.append_assoc]
    rfl
  unfold faultText
  split
  case h_1 token hkind =>
    rw [faultOfNode_of_missing hkind, hquote]
    rfl
  case h_2 hkind =>
    rw [faultOfNode_of_ne_missing hkind, hquote]
    rfl

theorem shows_faultOfNode (path : FilePath) (source : List Char) (bad : Node) :
    Shows path source bad (.parse path (faultOfNode source bad)) where
  eq_parse := rfl
  ne_unplaced h := faultOfNode_ne_unplaced source bad (Failure.parse.inj h).2
  message_eq := by
    change "File " ++ path.text ++ " parse error: " ++ (faultOfNode source bad).message = _
    rw [message_faultOfNode]
    simp only [String.append_assoc]

/-! ## Refused texts -/

theorem ofTree_eq_error_iff :
    ofTree holdsBad path dialect source root = .error failure ↔
      holdsBad root = true ∧ failure = .parse path (faultOfTree holdsBad source root) := by
  unfold ofTree
  split <;> simp [*, eq_comm]

/-- A tree is refused with its first bad node. -/
theorem exists_shows_of_ofTree (h : Node.TellsBad holdsBad root)
    (herror : ofTree holdsBad path dialect source root = .error failure) :
    ∃ bad, Node.IsFirstBad root bad ∧ Shows path source bad failure := by
  obtain ⟨hroot, rfl⟩ := ofTree_eq_error_iff.1 herror
  obtain ⟨bad, hbad⟩ := Node.exists_firstBad? h hroot
  refine ⟨bad, (Node.firstBad?_eq_some_iff h).1 hbad, ?_⟩
  rw [faultOfTree, hbad]
  exact shows_faultOfNode path source bad

/-- **A text is refused with its first fault.** The search finds a bad node if there is one, and
then the first of them; a tree is refused if it has one, and the failure shows it. So it is with the
tree of every source text that is refused. -/
theorem refused_at_first_fault (h : Node.TellsBad holdsBad root) :
    ((root.firstBad? holdsBad).isSome = true ↔ ∃ bad ∈ root.preorder, bad.kind.isBad = true) ∧
    (∀ bad, root.firstBad? holdsBad = some bad ↔ Node.IsFirstBad root bad) ∧
    (∀ path dialect source,
      ((∃ failure, ofTree holdsBad path dialect source root = .error failure) ↔
        ∃ bad ∈ root.preorder, bad.kind.isBad = true) ∧
      ∀ failure, ofTree holdsBad path dialect source root = .error failure →
        ∃ bad, root.firstBad? holdsBad = some bad ∧ Shows path source bad failure) ∧
    ∀ path source dialect failure, parseAs path source dialect = .error failure →
      ∃ bad, Node.IsFirstBad (tree dialect source.toList) bad ∧
        Shows path source.toList bad failure := by
  refine ⟨?_, fun bad => Node.firstBad?_eq_some_iff h, fun path dialect source => ⟨?_, ?_⟩, ?_⟩
  · rw [Node.firstBad?_eq_find? root h, List.find?_isSome]
  · simp only [ofTree_eq_error_iff, exists_and_left, exists_eq, and_true]
    exact h.self
  · intro failure herror
    obtain ⟨bad, hbad, hshows⟩ := exists_shows_of_ofTree h herror
    exact ⟨bad, (Node.firstBad?_eq_some_iff h).2 hbad, hshows⟩
  · intro path source dialect failure herror
    exact exists_shows_of_ofTree (Node.tellsBad_hasBad _) herror

/-- A source text of three lines. -/
def brokenSource : List Char := "f;\nä (x y\nz".toList

/-- The node of the place where it breaks the grammar first. A token is missing inside of it. -/
def brokenPlace : Node := ⟨.fault, none, 5, 9, [.leaf (.missing ")") 7 7]⟩

/-- A tree of the text: nothing is wrong with the first statement, and at the end of the second one
a token is missing too. -/
def brokenTree : Node :=
  ⟨.other, none, 0, 12,
    [⟨.expressionStatement, none, 0, 2, [.leaf .identifier 0 1]⟩,
      ⟨.expressionStatement, none, 3, 11,
        [.leaf .identifier 3 4, brokenPlace, .leaf (.missing ";") 11 11]⟩]⟩

theorem refused_brokenTree :
    Node.TellsBad Node.hasBad brokenTree ∧ Node.IsFirstBad brokenTree brokenPlace ∧
      ∃ failure, ofTree Node.hasBad ⟨"a.js"⟩ .javaScript brokenSource brokenTree = .error failure ∧
        failure.message = "File a.js parse error: unexpected \x60(x y\x60 at line 2, column 4" := by
  have htells : Node.TellsBad Node.hasBad brokenTree := Node.tellsBad_hasBad brokenTree
  obtain ⟨hsome, hfirst, hrefused, -⟩ := refused_at_first_fault htells
  have hplace : brokenTree.firstBad? Node.hasBad = some brokenPlace := by rfl
  obtain ⟨hiff, hshows⟩ := hrefused ⟨"a.js"⟩ .javaScript brokenSource
  obtain ⟨failure, herror⟩ := hiff.2 (hsome.1 (by rw [hplace]; rfl))
  refine ⟨htells, (hfirst _).1 hplace, failure, herror, ?_⟩
  obtain ⟨bad, hbad, hshown⟩ := hshows failure herror
  obtain rfl := Option.some.inj (hplace.symm.trans hbad)
  rw [hshown.message_eq]
  decide

end Module

end RemoteImports
