import Mathlib.Data.List.Perm.Basic
import RemoteImports.Proofs.Module.Cut
import RemoteImports.Proofs.Module.InPlace

/-!
# Runs of edits

Statements are put in and replaced one after the other, at whatever positions. What one edit does is
known by cases (`Edit.Does`), and each property of it is carried along a run by induction: layout is
only added (`Edit.Does.leadings_sublist`, `Edit.Does.leadings_perm`), a statement stays unless it is
replaced where it stands by then (`Module.getElem?_afterEdits`, `standsAt?_eq_none`), and the lines
are the old ones, some of them several times (`Edit.Does.lines`). `Module.edits_keep` puts this
together for a module that was read from a text.
-/

namespace RemoteImports

/-- A list with some of its members repeated where they stand. -/
inductive Stretches : List Nat → List Nat → Prop
  | nil : Stretches [] []
  | keep {n : Nat} {old new : List Nat} (h : Stretches old new) : Stretches (n :: old) (n :: new)
  | again {n : Nat} {old new : List Nat} (h : Stretches old (n :: new)) :
      Stretches old (n :: n :: new)

namespace Stretches

variable {n : Nat} {old new before after : List Nat}

theorem refl (ns : List Nat) : Stretches ns ns := by
  induction ns with
  | nil => exact .nil
  | cons n ns ih => exact .keep ih

theorem repeat_at (h : Stretches old (before ++ n :: after)) :
    Stretches old (before ++ n :: n :: after) := by
  generalize hnew : before ++ n :: after = new at h
  induction h generalizing before with
  | nil => simp at hnew
  | keep h ih =>
    cases before with
    | nil =>
      obtain ⟨rfl, rfl⟩ := List.cons.inj hnew
      exact .again (.keep h)
    | cons b before =>
      obtain ⟨rfl, rfl⟩ := List.cons.inj hnew
      exact .keep (ih rfl)
  | again h ih =>
    match before with
    | [] =>
      obtain ⟨rfl, rfl⟩ := List.cons.inj hnew
      exact .again (.again h)
    | [b] =>
      obtain ⟨rfl, hnew⟩ := List.cons.inj hnew
      obtain ⟨rfl, rfl⟩ := List.cons.inj hnew
      exact .again (.again h)
    | b :: b' :: before =>
      obtain ⟨rfl, hnew⟩ := List.cons.inj hnew
      obtain ⟨rfl, rfl⟩ := List.cons.inj hnew
      exact .again (@ih (b' :: before) rfl)

theorem mem_iff (h : Stretches old new) : n ∈ new ↔ n ∈ old := by
  induction h with
  | nil => exact Iff.rfl
  | keep h ih => rw [List.mem_cons, List.mem_cons, ih]
  | again h ih =>
    rw [List.mem_cons, ih, or_iff_right_iff_imp]
    rintro rfl
    exact ih.1 List.mem_cons_self

/-- Repeating numbers keeps their order. -/
theorem pairwise_le (h : Stretches old new) (hold : old.Pairwise (· ≤ ·)) :
    new.Pairwise (· ≤ ·) := by
  induction h with
  | nil => exact hold
  | keep h ih =>
    rw [List.pairwise_cons] at hold ⊢
    exact ⟨fun k hk => hold.1 k (h.mem_iff.1 hk), ih hold.2⟩
  | again h ih =>
    have hnew := ih hold
    refine List.pairwise_cons.2 ⟨fun k hk => ?_, hnew⟩
    rcases List.mem_cons.1 hk with rfl | hk
    · exact Nat.le_refl _
    · exact (List.pairwise_cons.1 hnew).1 k hk

end Stretches

namespace Edit

variable {e : Edit} {old new : List Statement} {s : Statement} {p q p' q' : Nat}

/-- The layout that an edit adds to a list of so many statements. -/
def addedLeadings (count : Nat) : Edit → List String
  | insert position new =>
    if position < count then ["\n"] else if position = count then [new.leading] else []
  | replace _ _ => []

theorem addedLeadings_of_not_fits {count : Nat} (h : ¬ e.Fits count) :
    e.addedLeadings count = [] := by
  cases e with
  | insert position new =>
    have hposition : count < position := Nat.lt_of_not_le h
    rw [addedLeadings, if_neg (by omega), if_neg (by omega)]
  | replace position new => rfl

/-- Where the statement at a position stands after an edit, unless it is replaced. -/
def moves : Edit → Nat → Option Nat
  | insert position _, p => some (if position ≤ p then p + 1 else p)
  | replace position _, p => if p = position then none else some p

theorem moves_eq_none_iff : e.moves p = none ↔ ∃ new, e = replace p new := by
  cases e with
  | insert position new => simp [moves]
  | replace position new => simp [moves, eq_comm]

/-- An edit whose position is not there moves nothing. -/
theorem moves_of_not_fits {count : Nat} (h : ¬ e.Fits count) (hp : p < count) :
    e.moves p = some p := by
  cases e with
  | insert position new =>
    have hposition : count < position := Nat.lt_of_not_le h
    rw [moves, if_neg (by omega)]
  | replace position new =>
    have hposition : count ≤ position := Nat.le_of_not_lt h
    rw [moves, if_neg (by omega)]

/-- What moves keeps its order. -/
theorem moves_lt (hlt : p < p') (h : e.moves p = some q) (h' : e.moves p' = some q') : q < q' := by
  cases e with
  | insert position new =>
    obtain rfl := Option.some.inj h
    obtain rfl := Option.some.inj h'
    split <;> split <;> omega
  | replace position new =>
    obtain ⟨-, hq⟩ := Option.ite_none_left_eq_some.1 h
    obtain ⟨-, hq'⟩ := Option.ite_none_left_eq_some.1 h'
    obtain rfl := Option.some.inj hq
    obtain rfl := Option.some.inj hq'
    exact hlt

namespace Does

/-! ## One edit -/

/-- No layout goes away. -/
theorem leadings_sublist (h : e.Does old new) :
    (old.map (·.leading)).Sublist (new.map (·.leading)) := by
  cases h with
  | insertBefore before s after new =>
    rw [List.map_append, List.map_append]
    exact (List.Sublist.refl _).append ((List.sublist_cons_self _ _).cons_cons _)
  | append _ new =>
    rw [List.map_append]
    exact List.sublist_append_left _ _
  | replace before s after new =>
    rw [List.map_append, List.map_append]
    exact List.Sublist.refl _
  | refuse _ _ h => exact List.Sublist.refl _

theorem leadings_perm (h : e.Does old new) :
    (new.map (·.leading)).Perm (old.map (·.leading) ++ e.addedLeadings old.length) := by
  cases h with
  | insertBefore before s after new =>
    have hadded : (insert before.length new).addedLeadings (before ++ s :: after).length = ["\n"] :=
      if_pos (by simp)
    rw [hadded, List.map_append, List.map_append, List.append_assoc]
    exact ((List.perm_append_singleton _ _).symm.cons _).append_left _
  | append _ new => simp [addedLeadings]
  | replace before s after new => simp [addedLeadings]
  | refuse _ _ h => rw [addedLeadings_of_not_fits h, List.append_nil]

/-- A statement that is not replaced moves with its text, its kind and its line. -/
theorem getElem?_moves (h : e.Does old new) (hs : old[p]? = some s) (hq : e.moves p = some q) :
    ∃ leading, new[q]? = some { s with leading } := by
  cases h with
  | insertBefore before s' after new =>
    obtain rfl := Option.some.inj hq
    split
    next hle =>
      obtain ⟨k, rfl⟩ := Nat.exists_eq_add_of_le hle
      rw [List.getElem?_append_right (Nat.le_add_right _ _), Nat.add_sub_cancel_left] at hs
      rw [List.getElem?_append_right (by omega), Nat.add_assoc, Nat.add_sub_cancel_left,
        List.getElem?_cons_succ]
      cases k with
      | zero =>
        -- the statement before which the new one is put in hands its layout over
        obtain rfl := Option.some.inj hs
        exact ⟨"\n", rfl⟩
      | succ k => exact ⟨s.leading, hs⟩
    next hlt =>
      rw [List.getElem?_append_left (by omega)] at hs ⊢
      exact ⟨s.leading, hs⟩
  | append _ new =>
    have hlt : p < old.length := (List.getElem?_eq_some_iff.1 hs).1
    obtain rfl := Option.some.inj hq
    rw [if_neg (by omega), List.getElem?_append_left hlt]
    exact ⟨s.leading, hs⟩
  | replace before s' after new =>
    obtain ⟨hne, hq⟩ := Option.ite_none_left_eq_some.1 hq
    obtain rfl := Option.some.inj hq
    refine ⟨s.leading, ?_⟩
    rcases Nat.lt_or_gt_of_ne hne with hlt | hgt
    · rw [List.getElem?_append_left hlt] at hs ⊢
      exact hs
    · obtain ⟨k, rfl⟩ := Nat.exists_eq_add_of_lt hgt
      rw [List.getElem?_append_right (by omega), Nat.add_assoc, Nat.add_sub_cancel_left] at hs ⊢
      exact hs
  | refuse _ _ h =>
    have hlt : p < old.length := (List.getElem?_eq_some_iff.1 hs).1
    obtain rfl := Option.some.inj ((moves_of_not_fits h hlt).symm.trans hq)
    exact ⟨s.leading, hs⟩

/-- Away from the end an edit repeats at most one line. -/
theorem lines {ns : List Nat} (h : e.Does old new) (hend : ∀ new, e ≠ .insert old.length new)
    (hold : Stretches ns (old.map (·.line))) : Stretches ns (new.map (·.line)) := by
  cases h with
  | insertBefore before s after new =>
    rw [List.map_append, List.map_cons] at hold ⊢
    exact hold.repeat_at
  | append _ new => exact absurd rfl (hend new)
  | replace before s after new =>
    rw [List.map_append, List.map_cons] at hold ⊢
    exact hold
  | refuse _ _ h => exact hold

end Does

/-! ## Runs -/

/-- Where the statement at a position stands after some edits, unless one of them replaces it. -/
def standsAt? : List Edit → Nat → Option Nat
  | [], p => some p
  | e :: rest, p => (e.moves p).bind (standsAt? rest)

/-- Only a replacement at the place where a statement stands by then takes it away. -/
theorem standsAt?_eq_none {edits : List Edit} (h : standsAt? edits p = none) :
    ∃ before q new after, edits = before ++ .replace q new :: after ∧
      standsAt? before p = some q := by
  induction edits generalizing p with
  | nil => cases h
  | cons e rest ih =>
    cases hmoves : e.moves p with
    | none =>
      obtain ⟨new, rfl⟩ := moves_eq_none_iff.1 hmoves
      exact ⟨[], p, new, rest, rfl, rfl⟩
    | some p' =>
      rw [standsAt?, hmoves] at h
      obtain ⟨before, q, new, after, rfl, hq⟩ := ih h
      exact ⟨e :: before, q, new, after, rfl, by rw [standsAt?, hmoves]; exact hq⟩

theorem standsAt?_lt {edits : List Edit} (hlt : p < p') (h : standsAt? edits p = some q)
    (h' : standsAt? edits p' = some q') : q < q' := by
  induction edits generalizing p p' with
  | nil =>
    obtain rfl := Option.some.inj h
    obtain rfl := Option.some.inj h'
    exact hlt
  | cons e rest ih =>
    obtain ⟨next, hnext, h⟩ := Option.bind_eq_some_iff.1 h
    obtain ⟨next', hnext', h'⟩ := Option.bind_eq_some_iff.1 h'
    exact ih (moves_lt hlt hnext hnext') h h'

end Edit

namespace Module

open Script Edit

variable {m : Module} {s : Statement} {edits : List Edit} {p q : Nat}

/-- The layout that some edits add to a module, in the order in which they are done. -/
def addedLeadings (m : Module) : List Edit → List String
  | [] => []
  | e :: rest => e.addedLeadings m.statements.length ++ (m.afterEdit e).addedLeadings rest

theorem leadings_sublist_afterEdits (m : Module) (edits : List Edit) :
    (m.statements.map (·.leading)).Sublist ((m.afterEdits edits).statements.map (·.leading)) := by
  induction edits generalizing m with
  | nil => exact List.Sublist.refl _
  | cons e rest ih => exact (m.does_afterEdit e).leadings_sublist.trans (ih _)

theorem leadings_perm_afterEdits (m : Module) (edits : List Edit) :
    ((m.afterEdits edits).statements.map (·.leading)).Perm
      (m.statements.map (·.leading) ++ m.addedLeadings edits) := by
  induction edits generalizing m with
  | nil => rw [addedLeadings, List.append_nil]; exact List.Perm.refl _
  | cons e rest ih =>
    rw [addedLeadings, ← List.append_assoc]
    exact (ih _).trans ((m.does_afterEdit e).leadings_perm.append_right _)

theorem exists_afterEdits_eq (m : Module) (edits : List Edit) :
    ∃ statements, m.afterEdits edits = { m with statements } := by
  induction edits generalizing m with
  | nil => exact ⟨m.statements, rfl⟩
  | cons e rest ih =>
    obtain ⟨between, hbetween⟩ := m.exists_afterEdit_eq e
    obtain ⟨statements, hrest⟩ := ih { m with statements := between }
    exact ⟨statements, (congrArg (·.afterEdits rest) hbetween).trans hrest⟩

/-- A statement that no edit replaces is there after all of them. -/
theorem getElem?_afterEdits (hs : m.statements[p]? = some s) (hq : standsAt? edits p = some q) :
    ∃ leading, (m.afterEdits edits).statements[q]? = some { s with leading } := by
  induction edits generalizing m s p with
  | nil =>
    obtain rfl := Option.some.inj hq
    exact ⟨s.leading, hs⟩
  | cons e rest ih =>
    obtain ⟨next, hnext, hq⟩ := Option.bind_eq_some_iff.1 hq
    obtain ⟨between, hbetween⟩ := (m.does_afterEdit e).getElem?_moves hs hnext
    obtain ⟨leading, hleading⟩ := ih hbetween hq
    exact ⟨leading, hleading⟩

/-- No statement is put in at the end by some edits if none is by the first of them, and none by the
others afterwards. -/
theorem forall_ne_insert_end_cons {e : Edit} {rest : List Edit} :
    (∀ before new after,
        e :: rest ≠ before ++ .insert (m.afterEdits before).statements.length new :: after) ↔
      (∀ new, e ≠ .insert m.statements.length new) ∧
      ∀ before new after,
        rest ≠ before ++
          .insert ((m.afterEdit e).afterEdits before).statements.length new :: after := by
  refine ⟨fun h => ⟨fun new he => h [] new rest (he ▸ rfl), fun before new after hrest =>
    h (e :: before) new after (hrest ▸ rfl)⟩, fun ⟨hfirst, hrest⟩ before new after h => ?_⟩
  cases before with
  | nil => exact hfirst new (List.cons.inj h).1
  | cons first before =>
    obtain ⟨rfl, h⟩ := List.cons.inj h
    exact hrest before new after h

theorem lines_afterEdits {ns : List Nat}
    (hend : ∀ before new after,
      edits ≠ before ++ .insert (m.afterEdits before).statements.length new :: after)
    (hold : Stretches ns (m.statements.map (·.line))) :
    Stretches ns ((m.afterEdits edits).statements.map (·.line)) := by
  induction edits generalizing m with
  | nil => exact hold
  | cons e rest ih =>
    obtain ⟨hfirst, hrest⟩ := forall_ne_insert_end_cons.1 hend
    exact ih hrest ((m.does_afterEdit e).lines hfirst hold)

/-! ## Modules read from a text -/

theorem rowAt_le {source : List Char} {start stop : Nat} (h : start ≤ stop) :
    rowAt source start ≤ rowAt source stop := by
  rw [rowAt, rowAt, ← take_append_slice h, List.count_append]
  exact Nat.le_add_right _ _

/-- Statements cut off one after the other stand in the order of their lines, none of them before
the place where the cut is. -/
theorem lines_statementsOfNodes (source : List Char) (progress : Progress) (nodes : List Node) :
    ((statementsOfNodes source progress nodes).1.map (·.line)).Pairwise (· ≤ ·) ∧
      ∀ s ∈ (statementsOfNodes source progress nodes).1,
        rowAt source progress.consumed + 1 ≤ s.line := by
  induction nodes generalizing progress with
  | nil => exact ⟨List.Pairwise.nil, fun s hs => absurd hs List.not_mem_nil⟩
  | cons node rest ih =>
    by_cases hnode : node.kind = .comment
    · rw [statementsOfNodes_cons_of_comment hnode, Progress.step_of_comment hnode]
      obtain ⟨hpairwise, hrest⟩ := ih (progress.afterComment source node)
      rw [Progress.consumed_afterComment] at hrest
      exact ⟨hpairwise, hrest⟩
    · rw [statementsOfNodes_cons_of_ne hnode, Progress.step_of_ne hnode]
      obtain ⟨hpairwise, hrest⟩ := ih (progress.afterStatement source node)
      have hfirst : rowAt source progress.consumed ≤
          rowAt source (max progress.consumed node.start) := rowAt_le (Nat.le_max_left _ _)
      have hnext : rowAt source (max progress.consumed node.start) ≤
          rowAt source (progress.afterStatement source node).consumed :=
        rowAt_le (Nat.le_max_left _ _)
      refine ⟨List.pairwise_cons.2 ⟨fun line hline => ?_, hpairwise⟩, fun s hs => ?_⟩
      · obtain ⟨s, hs, rfl⟩ := List.mem_map.1 hline
        exact Nat.le_trans (Nat.succ_le_succ hnext) (hrest s hs)
      · rcases List.mem_cons.1 hs with rfl | hs
        · exact Nat.succ_le_succ hfirst
        · exact Nat.le_trans (Nat.succ_le_succ (Nat.le_trans hfirst hnext)) (hrest s hs)

/-- **Edits lose nothing that they do not replace.** An edit stops at a position that is not there,
and leaves the module as it was. The layout is kept in its order, with one line feed for every
statement put in before another one and the layout of every statement put in at the end. A statement
keeps its text, kind, line and order unless an edit replaces it where it stands, and a replaced one
can be put back; without an insertion at the end the lines are the old ones, some of them
repeated. -/
theorem edits_keep {path : FilePath} {source : String} {dialect : Dialect} {m : Module}
    (h : parseAs path source dialect = .ok m) (edits : List Edit) :
    (∀ e : Edit, ¬ e.Fits (m.afterEdits edits).statements.length →
      e.perform.run.run (m.afterEdits edits) = (.error ⟨e.position⟩, m.afterEdits edits)) ∧
    (∀ e : Edit, e.Fits (m.afterEdits edits).statements.length →
      ∃ result statements, e.Does (m.afterEdits edits).statements statements ∧
        e.perform.run.run (m.afterEdits edits) =
          (.ok result, { m.afterEdits edits with statements })) ∧
    (m.statements.map (·.leading)).Sublist ((m.afterEdits edits).statements.map (·.leading)) ∧
    ((m.afterEdits edits).statements.map (·.leading)).Perm
      (m.statements.map (·.leading) ++ m.addedLeadings edits) ∧
    (∃ statements, m.afterEdits edits = { m with statements }) ∧
    (∀ p q s, m.statements[p]? = some s → standsAt? edits p = some q →
      ∃ leading, (m.afterEdits edits).statements[q]? = some { s with leading }) ∧
    (∀ p, standsAt? edits p = none →
      ∃ before q new after, edits = before ++ .replace q new :: after ∧
        standsAt? before p = some q) ∧
    (∀ p p' q q', p < p' → standsAt? edits p = some q → standsAt? edits p' = some q' → q < q') ∧
    ((∀ before new after,
        edits ≠ before ++ .insert (m.afterEdits before).statements.length new :: after) →
      Stretches (m.statements.map (·.line)) ((m.afterEdits edits).statements.map (·.line)) ∧
      ((m.afterEdits edits).statements.map (·.line)).Pairwise (· ≤ ·)) ∧
    ∀ p s new, (m.afterEdits edits).statements[p]? = some s →
      ∃ m', (Edit.replace p new).perform.run.run (m.afterEdits edits) =
          (.ok (some { s with leading := "" }), m') ∧
        ((Edit.replace p { s with leading := "" }).perform.run.run m').2 = m.afterEdits edits := by
  refine ⟨fun e => run_perform_of_not_fits, fun e => run_perform_of_fits,
    leadings_sublist_afterEdits m edits, leadings_perm_afterEdits m edits,
    exists_afterEdits_eq m edits, fun p q s => getElem?_afterEdits, fun p => standsAt?_eq_none,
    fun p p' q q' => standsAt?_lt, fun hend => ?_, fun p s new => replace_back new⟩
  · have hlines := lines_afterEdits hend (.refl _)
    refine ⟨hlines, hlines.pairwise_le ?_⟩
    rw [ofNodes_of_parseAs h]
    exact (lines_statementsOfNodes source.toList .start _).1

/-- Edits of a module of three statements. The first and the fourth are at positions that are not
there; the last statement is replaced, and two are put in before it. -/
def mixedEdits : List Edit :=
  [.insert 5 (.unplaced "a();" .other), .insert 1 (.unplaced "b();" .other),
    .replace 3 (.unplaced "c();" .other), .replace 4 (.unplaced "d();" .other),
    .insert 3 (.unplaced "e();" .other)]

theorem remarkedModule_mixedEdits :
    ["", "\n// a\n", " /* b */ "].Sublist ["", "\n// a\n", "\n", " /* b */ ", "\n"] ∧
      (∃ leading, (remarkedModule.afterEdits mixedEdits).statements[2]? =
        some ⟨leading, "import './a';", 3, .importing ⟨"./a", false, []⟩⟩) ∧
      (∃ before q new after, mixedEdits = before ++ .replace q new :: after ∧
        standsAt? before 2 = some q) ∧
      Stretches [1, 3, 3] [1, 3, 3, 3, 3] := by
  obtain ⟨-, -, hsublist, -, -, hthere, hreplaced, -, hlines, -⟩ :=
    edits_keep parse_remarkedSource mixedEdits
  refine ⟨hsublist, hthere 1 2 _ rfl rfl, hreplaced 2 rfl, (hlines ?_).1⟩
  refine forall_ne_insert_end_cons.2 ⟨fun new h =>
    absurd (congrArg Edit.position h) (show 5 ≠ 3 by decide), ?_⟩
  refine forall_ne_insert_end_cons.2 ⟨fun new h =>
    absurd (congrArg Edit.position h) (show 1 ≠ 3 by decide), ?_⟩
  refine forall_ne_insert_end_cons.2 ⟨nofun, ?_⟩
  refine forall_ne_insert_end_cons.2 ⟨nofun, ?_⟩
  refine forall_ne_insert_end_cons.2 ⟨fun new h =>
    absurd (congrArg Edit.position h) (show 3 ≠ 4 by decide), ?_⟩
  exact fun before new after h => by simp at h

end Module

end RemoteImports
