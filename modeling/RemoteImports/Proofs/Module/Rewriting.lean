import Mathlib.Data.List.Basic
import RemoteImports.Import.Rewrite

/-!
# Rewriting position by position

The rewriting of a module runs over its rewrites with a growing shift of the positions. Its result
is the one that looks at each statement on its own (`rewrite?_eq`): a statement that no rewrite is
about stays as it is, and any other one makes way for the statements generated for it, which share
its layout and its line (`Statement.placed`). The invariant of the run (`rewriteAfter_eq`) cuts the
statements into those behind the last edit and those still to be looked at.
-/

namespace RemoteImports

/-- The statements that a rewrite generates: the types that came with the import, then the proxy. -/
def Rewrite.statements (r : Rewrite) : List Statement :=
  (if r.site.typeBindings = [] then [] else [typeImport r.site.specifier r.site.typeBindings]) ++
    [r.proxy.statement]

/-- New statements in the place of an old one: the first takes over its layout, the others start new
lines, and all are said to stand in its line. -/
def Statement.placed (s : Statement) : List Statement → List Statement
  | [] => []
  | first :: rest =>
    { first with leading := s.leading, line := s.line } ::
      rest.map fun new => { new with leading := "\n", line := s.line }

namespace Module

/-- What a statement becomes by the rewrites, without the import of the runtime. -/
def proxiesAt (rewrites : List Rewrite) (i : Nat) (s : Statement) : List Statement :=
  match rewrites.find? (·.site.position = i) with
  | none => [s]
  | some r => s.placed r.statements

/-- What a statement becomes by the rewrites. The first of them also imports the runtime. -/
def rewrittenAt (rewrites : List Rewrite) (i : Nat) (s : Statement) : List Statement :=
  match rewrites.find? (·.site.position = i) with
  | none => [s]
  | some r =>
    s.placed ((if rewrites.head?.map (·.site.position) = some i then [runtimeImport] else []) ++
      r.statements)

/-- A list of statements, each of which is replaced by some statements that may depend on its
position. The positions are counted from `n`. -/
def replaceEach (f : Nat → Statement → List Statement) (n : Nat) (statements : List Statement) :
    List Statement :=
  (statements.zipIdx n).flatMap fun p => f p.2 p.1

/-- Rewrites that stand in the order of their positions, which lie in a range. -/
structure InOrder (start stop : Nat) (rewrites : List Rewrite) : Prop where
  pairwise : (rewrites.map (·.site.position)).Pairwise (· < ·)
  start_le : ∀ r ∈ rewrites, start ≤ r.site.position
  lt_stop : ∀ r ∈ rewrites, r.site.position < stop

namespace InOrder

variable {start stop : Nat} {r : Rewrite} {rest : List Rewrite}

theorem tail (h : InOrder start stop (r :: rest)) :
    InOrder (r.site.position + 1) stop rest := by
  have hpairwise := h.pairwise
  rw [List.map_cons, List.pairwise_cons] at hpairwise
  exact ⟨hpairwise.2, fun r' hr' => hpairwise.1 _ (List.mem_map_of_mem hr'),
    fun r' hr' => h.lt_stop r' (by simp [hr'])⟩

theorem skip (h : InOrder start stop (r :: rest)) (hr : r.site.position ≠ start) :
    InOrder (start + 1) stop (r :: rest) := by
  have hfirst : start < r.site.position :=
    Nat.lt_of_le_of_ne (h.start_le r (by simp)) (Ne.symm hr)
  refine ⟨h.pairwise, fun r' hr' => ?_, h.lt_stop⟩
  rcases List.mem_cons.1 hr' with rfl | hr'
  · exact hfirst
  · have := h.tail.start_le r' hr'
    omega

/-- No two rewrites share a position, so one is found by its own. -/
theorem find?_position {rewrites : List Rewrite} (h : InOrder start stop rewrites)
    (hr : r ∈ rewrites) : rewrites.find? (·.site.position = r.site.position) = some r := by
  have hpairwise := h.pairwise
  rw [List.pairwise_map] at hpairwise
  obtain ⟨before, after, rfl⟩ := List.append_of_mem hr
  refine List.find?_eq_some_iff_append.2 ⟨by simp, before, after, rfl, fun earlier hearlier => ?_⟩
  have hlt := (List.pairwise_append.1 hpairwise).2.2 earlier hearlier r List.mem_cons_self
  simpa using Nat.ne_of_lt hlt

/-- The first rewrite is known by its position. -/
theorem head?_position_iff {rewrites : List Rewrite} (h : InOrder start stop rewrites)
    (hr : r ∈ rewrites) :
    rewrites.head?.map (·.site.position) = some r.site.position ↔ rewrites.head? = some r := by
  obtain ⟨first, rest, rfl⟩ := List.exists_cons_of_ne_nil (List.ne_nil_of_mem hr)
  simp only [List.head?_cons, Option.map_some, Option.some.injEq]
  refine ⟨fun hposition => ?_, fun hfirst => hfirst ▸ rfl⟩
  rcases List.mem_cons.1 hr with rfl | hr
  · rfl
  · have := h.tail.start_le r hr
    omega

end InOrder

/-! ## Statements one by one -/

section ReplaceEach

variable {f g : Nat → Statement → List Statement} {n : Nat} {statements : List Statement}

@[simp] theorem replaceEach_nil : replaceEach f n [] = [] := rfl

theorem replaceEach_cons (s : Statement) (rest : List Statement) :
    replaceEach f n (s :: rest) = f n s ++ replaceEach f (n + 1) rest := by
  simp [replaceEach, List.zipIdx_cons]

theorem replaceEach_append (statements more : List Statement) :
    replaceEach f n (statements ++ more) =
      replaceEach f n statements ++ replaceEach f (n + statements.length) more := by
  simp [replaceEach, List.zipIdx_append]

theorem replaceEach_congr (h : ∀ i s, n ≤ i → i < n + statements.length → f i s = g i s) :
    replaceEach f n statements = replaceEach g n statements := by
  induction statements generalizing n with
  | nil => rfl
  | cons s rest ih =>
    rw [List.length_cons] at h
    rw [replaceEach_cons, replaceEach_cons, h n s (by omega) (by omega),
      ih fun i s hi hlt => h i s (by omega) (by omega)]

theorem replaceEach_singleton (n : Nat) (statements : List Statement) :
    replaceEach (fun _ s => [s]) n statements = statements := by
  induction statements generalizing n with
  | nil => rfl
  | cons s rest ih => rw [replaceEach_cons, ih, List.singleton_append]

theorem replaceEach_self (h : ∀ i s, n ≤ i → i < n + statements.length → f i s = [s]) :
    replaceEach f n statements = statements :=
  (replaceEach_congr h).trans (replaceEach_singleton n statements)

end ReplaceEach

/-! ## One edit -/

theorem insertAt_append (new s : Statement) (before after : List Statement) :
    insertAt new before.length (before ++ s :: after) =
      some (before ++ { new with leading := s.leading, line := s.line } ::
        { s with leading := "\n" } :: after) := by
  induction before with
  | nil => rfl
  | cons b before ih => simp [insertAt, ih]

theorem replaceAt_append (new s : Statement) (before after : List Statement) :
    replaceAt new before.length (before ++ s :: after) =
      some ({ s with leading := "" },
        before ++ { new with leading := s.leading, line := s.line } :: after) := by
  induction before with
  | nil => rfl
  | cons b before ih => simp [replaceAt, ih]

theorem length_placed (s : Statement) (new : List Statement) :
    (s.placed new).length = new.length := by
  cases new <;> simp [Statement.placed]

/-- One rewrite, with the statements cut at its place. -/
theorem rewriteAfter_cons {m : Module} {before after : List Statement} {s : Statement}
    {shift : Nat} {r : Rewrite} (rest : List Rewrite)
    (hm : m.statements = before ++ s :: after) (hr : before.length = r.site.position + shift) :
    m.rewriteAfter shift (r :: rest) =
      rewriteAfter { m with statements := before ++ (s.placed r.statements ++ after) }
        (shift + (r.statements.length - 1)) rest := by
  rw [rewriteAfter, ← hr, replace?, hm, replaceAt_append]
  by_cases htypes : r.site.typeBindings = []
  · simp [Rewrite.statements, Statement.placed, htypes]
  · simp [Rewrite.statements, Statement.placed, htypes, insert?, insertAt_append]

/-! ## The run -/

theorem proxiesAt_of_notMem {rewrites : List Rewrite} {i : Nat} (s : Statement)
    (h : ∀ r ∈ rewrites, r.site.position ≠ i) : proxiesAt rewrites i s = [s] := by
  have hfind : rewrites.find? (·.site.position = i) = none := by simpa using h
  rw [proxiesAt, hfind]

theorem rewrittenAt_of_notMem {rewrites : List Rewrite} {i : Nat} (s : Statement)
    (h : ∀ r ∈ rewrites, r.site.position ≠ i) : rewrittenAt rewrites i s = [s] := by
  have hfind : rewrites.find? (·.site.position = i) = none := by simpa using h
  rw [rewrittenAt, hfind]

/-- Away from the first rewrite only the later ones count. -/
theorem proxiesAt_cons_of_ne {r : Rewrite} {rest : List Rewrite} {i : Nat} (s : Statement)
    (h : r.site.position ≠ i) : proxiesAt (r :: rest) i s = proxiesAt rest i s := by
  have hfind : (r :: rest).find? (·.site.position = i) = rest.find? (·.site.position = i) :=
    List.find?_cons_of_neg (by simpa using h)
  rw [proxiesAt, hfind, proxiesAt]

theorem proxiesAt_head (r : Rewrite) (rest : List Rewrite) (s : Statement) :
    proxiesAt (r :: rest) r.site.position s = s.placed r.statements := by
  simp [proxiesAt]

theorem length_statements_pos (r : Rewrite) : 0 < r.statements.length := by
  simp [Rewrite.statements]

/-- **The run over the rewrites**, when some statements lie behind the last edit and the others
start at a position of their own: the latter are looked at one by one. -/
theorem rewriteAfter_eq {todo before : List Statement} {m : Module} {n shift : Nat}
    {rewrites : List Rewrite} (hm : m.statements = before ++ todo)
    (hbefore : before.length = n + shift) (h : InOrder n (n + todo.length) rewrites) :
    m.rewriteAfter shift rewrites =
      some { m with statements := before ++ replaceEach (proxiesAt rewrites) n todo } := by
  induction todo generalizing before m n shift rewrites with
  | nil =>
    obtain rfl : rewrites = [] := by
      refine List.eq_nil_iff_forall_not_mem.2 fun r hr => ?_
      have hstart := h.start_le r hr
      have hstop := h.lt_stop r hr
      simp only [List.length_nil] at hstop
      omega
    simp [rewriteAfter, ← hm]
  | cons s after ih =>
    rw [List.length_cons, ← Nat.add_assoc, Nat.add_right_comm] at h
    rw [replaceEach_cons]
    match rewrites with
    | [] =>
      rw [rewriteAfter, replaceEach_self fun i s _ _ => proxiesAt_of_notMem s (by simp),
        proxiesAt_of_notMem s (by simp), List.singleton_append, ← hm]
    | r :: rest =>
      by_cases hr : r.site.position = n
      · -- the statement makes way, and the rest of the run does not see this rewrite
        subst hr
        have htail : replaceEach (proxiesAt (r :: rest)) (r.site.position + 1) after =
            replaceEach (proxiesAt rest) (r.site.position + 1) after :=
          replaceEach_congr fun i s hi _ => proxiesAt_cons_of_ne s (by omega)
        have hpos := length_statements_pos r
        rw [rewriteAfter_cons rest hm hbefore, proxiesAt_head, htail]
        rw [ih (List.append_assoc ..).symm ?_ h.tail]
        · simp only [List.append_assoc]
        · rw [List.length_append, length_placed]
          omega
      · -- no rewrite is about the statement
        have hskip := h.skip hr
        have hs : proxiesAt (r :: rest) n s = [s] :=
          proxiesAt_of_notMem s fun r' hr' => by
            have := hskip.start_le r' hr'
            omega
        have hcut : m.statements = (before ++ [s]) ++ after := by simp [hm]
        have hlength : (before ++ [s]).length = n + 1 + shift := by
          rw [List.length_append, hbefore, List.length_singleton]
          omega
        rw [hs, ih hcut hlength hskip]
        simp only [List.append_assoc]

/-! ## The whole rewriting -/

theorem rewrittenAt_of_head_ne {rewrites : List Rewrite} {i : Nat} (s : Statement)
    (h : rewrites.head?.map (·.site.position) ≠ some i) :
    rewrittenAt rewrites i s = proxiesAt rewrites i s := by
  simp [rewrittenAt, proxiesAt, h]

/-- The import of the runtime takes over the layout of the first import, which then starts a line of
its own. -/
theorem rewrittenAt_head (r : Rewrite) (rest : List Rewrite) (s : Statement) :
    rewrittenAt (r :: rest) r.site.position s =
      { runtimeImport with leading := s.leading, line := s.line } ::
        Statement.placed { s with leading := "\n" } r.statements := by
  obtain ⟨new, more, hnew⟩ : ∃ new more, r.statements = new :: more :=
    List.exists_cons_of_length_pos (length_statements_pos r)
  simp [rewrittenAt, Statement.placed, hnew]

/-- **A rewriting is the replacement of its statements one by one.** It succeeds whenever the
positions are in order and inside of the module. -/
theorem rewrite?_eq {m : Module} {rewrites : List Rewrite}
    (h : InOrder 0 m.statements.length rewrites) :
    m.rewrite? rewrites =
      some { m with statements := replaceEach (rewrittenAt rewrites) 0 m.statements } := by
  match rewrites with
  | [] =>
    rw [rewrite?, replaceEach_self fun i s _ _ => rewrittenAt_of_notMem s (by simp)]
  | r :: rest =>
    have hr : r.site.position < m.statements.length := h.lt_stop r (by simp)
    obtain ⟨before, s, after, hm, hbefore⟩ : ∃ before s after,
        m.statements = before ++ s :: after ∧ before.length = r.site.position := by
      refine ⟨m.statements.take r.site.position, m.statements[r.site.position],
        m.statements.drop (r.site.position + 1), ?_, List.length_take_of_le (Nat.le_of_lt hr)⟩
      rw [← List.drop_eq_getElem_cons hr, List.take_append_drop]
    have hfrom : InOrder r.site.position (r.site.position + (after.length + 1)) (r :: rest) := by
      refine ⟨h.pairwise, fun r' hr' => ?_, fun r' hr' => ?_⟩
      · rcases List.mem_cons.1 hr' with rfl | hr'
        · exact Nat.le_refl _
        · exact Nat.le_of_lt (h.tail.start_le r' hr')
      · have := h.lt_stop r' hr'
        rw [hm, List.length_append, List.length_cons, hbefore] at this
        exact this
    have hbeforeSelf : replaceEach (rewrittenAt (r :: rest)) 0 before = before :=
      replaceEach_self fun i s _ hi => rewrittenAt_of_notMem s fun r' hr' => by
        have := hfrom.start_le r' hr'
        omega
    have hafter : replaceEach (rewrittenAt (r :: rest)) (r.site.position + 1) after =
        replaceEach (proxiesAt (r :: rest)) (r.site.position + 1) after :=
      replaceEach_congr fun i s hi _ => rewrittenAt_of_head_ne s (by simp; omega)
    rw [rewrite?, insert?, hm, ← hbefore, insertAt_append, replaceEach_append, hbeforeSelf,
      Nat.zero_add, hbefore, replaceEach_cons, rewrittenAt_head, hafter]
    simp only [Option.map_some, Option.bind_eq_bind, Option.bind_some]
    rw [rewriteAfter_eq (List.append_cons ..) (by simp [hbefore]) hfrom, replaceEach_cons,
      proxiesAt_head]
    simp only [List.append_assoc, List.nil_append, List.cons_append]

end Module

end RemoteImports
