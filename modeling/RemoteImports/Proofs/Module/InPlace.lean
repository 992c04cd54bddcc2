import Mathlib.Data.List.Basic
import RemoteImports.Proofs.Module.Rewriting

/-!
# Editing a module in place

An edit done step by step on a module at hand: layout and line are handed over first, and then the
list of statements changes (`Edit.perform`). At a position that the module does not have the work
stops, and nothing has been done to the module by then: the steps agree with `insert?` and
`replace?`, which give a new module or none (`run_perform_insert`, `run_perform_replace`). What an
edit does to a list of statements is one of four things (`Edit.Does`).
-/

namespace RemoteImports

/-- An edit of a module. -/
inductive Edit
  /-- Put a statement in before a position. -/
  | insert (position : Nat) (new : Statement)
  /-- Replace the statement at a position. -/
  | replace (position : Nat) (new : Statement)
  deriving DecidableEq, Inhabited, Repr

/-- A position that a module does not have. -/
structure OutOfRange where
  position : Nat
  deriving DecidableEq, Inhabited, Repr

/-- Work on a module at hand. Where it stops, the module stays as the work up to there made it. -/
abbrev Editing (α : Type) : Type := ExceptT OutOfRange (StateM Module) α

namespace Edit

/-- The statement at a position hands its layout and line over to a new one and starts a new line.
Without a statement there the new one stays as it is. -/
def handOver (position : Nat) (new : Statement) : Editing Statement := do
  let m ← get
  match m.statements[position]? with
  | none => return new
  | some s =>
    set { m with statements := m.statements.set position { s with leading := "\n" } }
    return { new with leading := s.leading, line := s.line }

/-- Does an edit step by step. A replacement gives the old statement back, without its layout. -/
def perform : Edit → Editing (Option Statement)
  | insert position new => do
    let new ← handOver position new
    let m ← get
    if m.statements.length < position then throw ⟨position⟩
    set { m with statements := m.statements.insertIdx position new }
    return none
  | replace position new => do
    let m ← get
    match m.statements[position]? with
    | none => throw ⟨position⟩
    | some s =>
      set { m with
        statements := m.statements.set position { new with leading := s.leading, line := s.line } }
      return some { s with leading := "" }

/-- The position that an edit is about. -/
def position : Edit → Nat
  | insert position _ => position
  | replace position _ => position

/-- Whether a list of so many statements has the position of an edit. A statement can also be put in
at the end. -/
def Fits (count : Nat) : Edit → Prop
  | insert position _ => position ≤ count
  | replace position _ => position < count

/-- What an edit does to a list of statements. -/
inductive Does : Edit → List Statement → List Statement → Prop
  | insertBefore (before : List Statement) (s : Statement) (after : List Statement)
      (new : Statement) :
      Does (insert before.length new) (before ++ s :: after)
        (before ++ { new with leading := s.leading, line := s.line } ::
          { s with leading := "\n" } :: after)
  | append (statements : List Statement) (new : Statement) :
      Does (insert statements.length new) statements (statements ++ [new])
  | replace (before : List Statement) (s : Statement) (after : List Statement)
      (new : Statement) :
      Does (replace before.length new) (before ++ s :: after)
        (before ++ { new with leading := s.leading, line := s.line } :: after)
  | refuse (e : Edit) (statements : List Statement) (h : ¬ e.Fits statements.length) :
      Does e statements statements

end Edit

namespace Module

variable {m : Module} {e : Edit} {new s : Statement} {statements before after : List Statement}

/-! ## Edits of a list -/

theorem insertAt_length (new : Statement) (statements : List Statement) :
    insertAt new statements.length statements = some (statements ++ [new]) := by
  induction statements with
  | nil => rfl
  | cons s rest ih => simp [insertAt, ih]

theorem insertAt_eq_none_iff {position : Nat} :
    insertAt new position statements = none ↔ statements.length < position := by
  fun_induction insertAt new position statements <;> simp_all

theorem replaceAt_eq_none_iff {position : Nat} :
    replaceAt new position statements = none ↔ statements.length ≤ position := by
  fun_induction replaceAt new position statements <;> simp_all

theorem insertIdx_length_append (new : Statement) (before after : List Statement) :
    (before ++ after).insertIdx before.length new = before ++ new :: after := by
  induction before with
  | nil => rfl
  | cons b before ih =>
    rw [List.cons_append, List.length_cons, List.insertIdx_succ_cons, ih, List.cons_append]

theorem exists_split {position : Nat} (h : position < statements.length) :
    ∃ before s after, statements = before ++ s :: after ∧ before.length = position := by
  refine ⟨statements.take position, statements[position], statements.drop (position + 1), ?_, ?_⟩
  · rw [← List.drop_eq_getElem_cons h, List.take_append_drop]
  · rw [List.length_take, Nat.min_eq_left (Nat.le_of_lt h)]

/-! ## The steps of an edit -/

section Run

variable {α β : Type}

theorem run_get_bind (k : Module → Editing α) (m : Module) :
    (get >>= k).run.run m = (k m).run.run m := rfl

theorem run_set_bind (m' : Module) (k : PUnit → Editing α) (m : Module) :
    (set m' >>= k).run.run m = (k ⟨⟩).run.run m' := rfl

theorem run_bind (work : Editing α) (k : α → Editing β) (m : Module) :
    (work >>= k).run.run m =
      match work.run.run m with
      | (.ok a, m') => (k a).run.run m'
      | (.error e, m') => (.error e, m') := by
  change (match work.run.run m with
    | (r, m') => (ExceptT.bindCont k r).run m') = _
  obtain ⟨a | e, m'⟩ := work.run.run m <;> rfl

end Run

theorem run_handOver (position : Nat) (new : Statement) (m : Module) :
    (Edit.handOver position new).run.run m =
      match m.statements[position]? with
      | none => (.ok new, m)
      | some s => (.ok { new with leading := s.leading, line := s.line },
          { m with statements := m.statements.set position { s with leading := "\n" } }) := by
  unfold Edit.handOver
  rw [run_get_bind]
  cases m.statements[position]? <;> rfl

theorem run_perform_insert (position : Nat) (new : Statement) (m : Module) :
    (Edit.insert position new).perform.run.run m =
      match m.insert? position new with
      | none => (.error ⟨position⟩, m)
      | some m' => (.ok none, m') := by
  unfold Edit.perform
  simp only
  rw [run_bind, run_handOver]
  rcases Nat.lt_or_ge position m.statements.length with hlt | hge
  · obtain ⟨before, s, after, hm, rfl⟩ := exists_split hlt
    have hget : m.statements[before.length]? = some s := by simp [hm]
    have hset : m.statements.set before.length { s with leading := "\n" } =
        before ++ { s with leading := "\n" } :: after := by
      rw [hm, List.set_append_right _ _ (Nat.le_refl _), Nat.sub_self, List.set_cons_zero]
    have hinsert : m.insert? before.length new =
        some { m with statements := before ++ { new with leading := s.leading, line := s.line } ::
          { s with leading := "\n" } :: after } := by
      rw [insert?, hm, insertAt_append, Option.map_some]
    rw [hget, hinsert]
    simp only
    rw [run_get_bind, if_neg (by rw [List.length_set]; omega), hset, insertIdx_length_append]
    rfl
  · rw [List.getElem?_eq_none hge]
    simp only
    rw [run_get_bind]
    rcases Nat.eq_or_lt_of_le hge with rfl | hlt
    · rw [if_neg (Nat.lt_irrefl _), List.insertIdx_length_self, insert?, insertAt_length]
      rfl
    · rw [if_pos hlt, insert?, insertAt_eq_none_iff.2 hlt]
      rfl

theorem run_perform_replace (position : Nat) (new : Statement) (m : Module) :
    (Edit.replace position new).perform.run.run m =
      match m.replace? position new with
      | none => (.error ⟨position⟩, m)
      | some (old, m') => (.ok (some old), m') := by
  unfold Edit.perform
  simp only
  rw [run_get_bind]
  rcases Nat.lt_or_ge position m.statements.length with hlt | hge
  · obtain ⟨before, s, after, hm, rfl⟩ := exists_split hlt
    have hget : m.statements[before.length]? = some s := by simp [hm]
    rw [hget, replace?, hm, replaceAt_append]
    simp only
    rw [run_set_bind, List.set_append_right _ _ (Nat.le_refl _), Nat.sub_self, List.set_cons_zero]
    rfl
  · rw [List.getElem?_eq_none hge, replace?, replaceAt_eq_none_iff.2 hge]
    rfl

/-! ## The module after an edit -/

/-- The module as an edit leaves it, done or stopped. -/
def afterEdit (m : Module) (e : Edit) : Module := (e.perform.run.run m).2

/-- The module as some edits leave it, one after the other. -/
def afterEdits (m : Module) (edits : List Edit) : Module := edits.foldl afterEdit m

theorem run_perform_of_not_fits (h : ¬ e.Fits m.statements.length) :
    e.perform.run.run m = (.error ⟨e.position⟩, m) := by
  cases e with
  | insert position new =>
    rw [run_perform_insert, insert?, insertAt_eq_none_iff.2 (Nat.lt_of_not_le h)]
    rfl
  | replace position new =>
    rw [run_perform_replace, replace?, replaceAt_eq_none_iff.2 (Nat.le_of_not_lt h)]
    rfl

/-- A position in front of a statement is one between two parts of a list. -/
theorem run_insert_before (new : Statement) (hm : m.statements = before ++ s :: after) :
    (Edit.insert before.length new).perform.run.run m =
      (.ok none, { m with statements :=
        before ++ { new with leading := s.leading, line := s.line } ::
          { s with leading := "\n" } :: after }) := by
  rw [run_perform_insert, insert?, hm, insertAt_append]
  rfl

theorem run_insert_end (m : Module) (new : Statement) :
    (Edit.insert m.statements.length new).perform.run.run m =
      (.ok none, { m with statements := m.statements ++ [new] }) := by
  rw [run_perform_insert, insert?, insertAt_length]
  rfl

theorem run_replace (new : Statement) (hm : m.statements = before ++ s :: after) :
    (Edit.replace before.length new).perform.run.run m =
      (.ok (some { s with leading := "" }), { m with statements :=
        before ++ { new with leading := s.leading, line := s.line } :: after }) := by
  rw [run_perform_replace, replace?, hm, replaceAt_append]
  rfl

/-- An edit whose position is there is done, and changes nothing but the statements. -/
theorem run_perform_of_fits (h : e.Fits m.statements.length) :
    ∃ result statements, e.Does m.statements statements ∧
      e.perform.run.run m = (.ok result, { m with statements }) := by
  cases e with
  | insert position new =>
    rcases Nat.lt_or_eq_of_le h with hlt | rfl
    · obtain ⟨before, s, after, hm, rfl⟩ := exists_split hlt
      rw [run_insert_before new hm, hm]
      exact ⟨_, _, .insertBefore before s after new, rfl⟩
    · exact ⟨_, _, .append m.statements new, run_insert_end m new⟩
  | replace position new =>
    obtain ⟨before, s, after, hm, rfl⟩ := exists_split h
    rw [run_replace new hm, hm]
    exact ⟨_, _, .replace before s after new, rfl⟩

theorem does_afterEdit (m : Module) (e : Edit) :
    e.Does m.statements (m.afterEdit e).statements := by
  by_cases h : e.Fits m.statements.length
  · obtain ⟨result, statements, hdoes, hrun⟩ := run_perform_of_fits h
    rw [afterEdit, hrun]
    exact hdoes
  · rw [afterEdit, run_perform_of_not_fits h]
    exact .refuse e m.statements h

theorem exists_afterEdit_eq (m : Module) (e : Edit) :
    ∃ statements, m.afterEdit e = { m with statements } := by
  by_cases h : e.Fits m.statements.length
  · obtain ⟨result, statements, -, hrun⟩ := run_perform_of_fits h
    exact ⟨statements, by rw [afterEdit, hrun]⟩
  · exact ⟨m.statements, by rw [afterEdit, run_perform_of_not_fits h]⟩

/-- A replaced statement can be put back: it is given its layout and line again. -/
theorem replace_back {position : Nat} (new : Statement) (h : m.statements[position]? = some s) :
    ∃ m', (Edit.replace position new).perform.run.run m =
        (.ok (some { s with leading := "" }), m') ∧
      ((Edit.replace position { s with leading := "" }).perform.run.run m').2 = m := by
  obtain ⟨hlt, hs⟩ := List.getElem?_eq_some_iff.1 h
  obtain ⟨before, s', after, hm, rfl⟩ := exists_split hlt
  obtain rfl : s' = s := by simpa [hm] using h
  refine ⟨_, run_replace new hm, ?_⟩
  rw [run_replace _ rfl, ← hm]

end Module

end RemoteImports
