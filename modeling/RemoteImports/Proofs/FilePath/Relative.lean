import RemoteImports.Proofs.FilePath.Join

/-!
# Relative paths between normal paths

The relative path of a normal target is what its components add to those of the directory. Below a
directory these are entry names, and the relative path leads back to the target if all of them are
texts (`LeadsDown.normalize_join_shown_iff`). But a directory that consists of steps to the parent
alone is also the start of targets above it, and the empty path is the start of every path: their
relative paths exist, too (`relativeTo_normalize_eq_some_iff`).
-/

namespace RemoteImports.FilePath

open Component

variable {dir target : FilePath} {names : List OsString} {start steps : List Component}

/-! ## Joining names to any directory -/

theorem ofComponents_names (names : List OsString) :
    ofComponents (names.map name) = ⟨OsString.join names⟩ := by
  cases names with
  | nil => rfl
  | cons s rest => exact congrArg (ofOsString ∘ OsString.join) (map_written_name (s :: rest))

theorem components_join_names (h : ∀ s ∈ names, IsEntryName s) :
    components ⟨OsString.join names⟩ = names.map name := by
  rw [← ofComponents_names]
  exact components_ofComponents (isInner_of_mem_names h)

/-- **Entry names joined to a directory** follow its components. -/
theorem components_join_join_names (dir : FilePath) (hne : names ≠ [])
    (h : ∀ s ∈ names, IsEntryName s) :
    (dir.join ⟨OsString.join names⟩).components = dir.components ++ names.map name := by
  have hrelative := not_isAbsolute_join_names hne h
  have hnames := components_join_names h
  by_cases hdir : dir.bytes = []
  · rw [join_of_empty hdir hrelative, components_of_empty hdir, hnames, List.nil_append]
  · rw [components_join hdir hrelative, hnames, List.filter_eq_self.2 fun c hc => ?_]
    obtain ⟨s, -, rfl⟩ := List.mem_map.1 hc
    rfl

/-! ## What a normal path adds to its start -/

/-- Steps to the parent after nothing but steps to the parent are kept. -/
theorem foldl_stepNormal_ups (j k : ℕ) :
    (List.replicate j up).foldl stepNormal (List.replicate k up) = List.replicate (k + j) up := by
  induction j generalizing k with
  | zero => rfl
  | succ j ih =>
    have hstep : stepNormal (List.replicate k up) up = List.replicate (k + 1) up := by
      cases k <;> rfl
    rw [List.replicate_succ, List.foldl_cons, hstep, ih, Nat.add_right_comm, Nat.add_assoc]

/-- **A normal list of components stays as it is.** -/
theorem IsNormal.normalComponents_eq (h : IsNormal steps) : normalComponents steps = steps := by
  cases h with
  | absolute => exact normalComponents_names _
  | @relative k names =>
    have hups : (List.replicate k up).foldl stepNormal [] = List.replicate k up := by
      simpa using foldl_stepNormal_ups k 0
    rw [normalComponents, List.foldl_append, hups, foldl_stepNormal_names, List.reverse_append,
      List.reverse_reverse, List.reverse_replicate]

/-- The end of a normal path, after any start of it. -/
theorem IsNormal.cases_append (h : IsNormal (start ++ steps)) :
    (∃ names : List OsString, (∀ s ∈ names, IsEntryName s) ∧ steps = names.map name) ∨
      (∃ k j, ∃ names : List OsString, start = List.replicate k up ∧
        steps = List.replicate (j + 1) up ++ names.map name) ∨
      start = [] ∧ ∃ names : List OsString, steps = root :: names.map name := by
  generalize hall : start ++ steps = all at h
  cases h with
  | @absolute names hnames =>
    rcases List.append_eq_cons_iff.1 hall with ⟨rfl, hsteps⟩ | ⟨start', rfl, hnames'⟩
    · exact .inr (.inr ⟨rfl, names, hsteps⟩)
    · obtain ⟨own, more, rfl, -, rfl⟩ := List.map_eq_append_iff.1 hnames'
      exact .inl ⟨more, fun s hs => hnames s (List.mem_append_right own hs), rfl⟩
  | @relative k names hnames =>
    rcases List.append_eq_append_iff.1 hall with ⟨more, hups, rfl⟩ | ⟨own, rfl, hnames'⟩
    · obtain ⟨-, hstart, hmore⟩ := List.replicate_eq_append_iff.1 hups
      rcases hj : more.length with _ | j
      · obtain rfl := List.length_eq_zero_iff.1 hj
        exact .inl ⟨names, hnames, rfl⟩
      · exact .inr (.inl ⟨_, j, names, hstart, by rw [hmore, hj]⟩)
    · obtain ⟨own', more, rfl, -, rfl⟩ := List.map_eq_append_iff.1 hnames'
      exact .inl ⟨more, fun s hs => hnames s (List.mem_append_right own' hs), rfl⟩

/-! ## Relative paths -/

/-- Entry names lead from a directory to a target strictly below it. -/
structure LeadsDown (dir target : FilePath) (names : List OsString) : Prop where
  ne_nil : names ≠ []
  isEntryName : ∀ s ∈ names, IsEntryName s
  components_eq : target.components = dir.components ++ names.map name

/-- Steps to the parent, and then perhaps entry names, lead from a directory that consists of steps
to the parent alone to a target that is not below it. -/
def LeadsUp (dir target : FilePath) (steps : List Component) : Prop :=
  ∃ k j, ∃ names : List OsString, dir.components = List.replicate k up ∧
    steps = List.replicate (j + 1) up ++ names.map name ∧
    target.components = dir.components ++ steps

/-- The empty path is the start of an absolute target, whose top is the first step. -/
def LeadsToTop (dir target : FilePath) (steps : List Component) : Prop :=
  dir.components = [] ∧ (∃ names : List OsString, steps = root :: names.map name) ∧
    target.components = steps

/-- Entry names after a normal path make a normal path. -/
theorem IsNormal.append_names (h : IsNormal steps) (hnames : ∀ s ∈ names, IsEntryName s) :
    IsNormal (steps ++ names.map name) := by
  cases h with
  | @absolute own hown =>
    rw [List.cons_append, ← List.map_append]
    exact .absolute fun s hs => (List.mem_append.1 hs).elim (hown s) (hnames s)
  | @relative k own hown =>
    rw [List.append_assoc, ← List.map_append]
    exact .relative k fun s hs => (List.mem_append.1 hs).elim (hown s) (hnames s)

/-- Entry names joined to a normal path lead to a normal target if they are those that lead down to
it. -/
theorem LeadsDown.normalize_join_iff {p q : FilePath} {others : List OsString}
    (h : LeadsDown p.normalize q.normalize names) (hne : others ≠ [])
    (hothers : ∀ s ∈ others, IsEntryName s) :
    (p.normalize.join ⟨OsString.join others⟩).normalize = q.normalize ↔ others = names := by
  have hcomponents := components_join_join_names p.normalize hne hothers
  have hnormal : IsNormal (p.normalize.join ⟨OsString.join others⟩).components := by
    rw [hcomponents]
    exact (isNormal_normalize p).append_names hothers
  rw [normalize, hnormal.normalComponents_eq]
  constructor
  · intro he
    have hsame := congrArg components he
    rw [hnormal.components_ofComponents, hcomponents, h.components_eq] at hsame
    exact List.map_injective_iff.2 (fun _ _ => Component.name.inj) (List.append_cancel_left hsame)
  · rintro rfl
    rw [hcomponents, ← h.components_eq, ← normalize_eq_ofComponents]

/-- **Shown names lead back** to the target that the names lead down to if they show all there is of
them. -/
theorem LeadsDown.normalize_join_shown_iff {p q : FilePath}
    (h : LeadsDown p.normalize q.normalize names) :
    (p.normalize.join ("/".intercalate (names.map OsString.text))).normalize = q.normalize ↔
      ∀ s ∈ names, s.IsUnicode := by
  rw [FilePath.mk, ofText_intercalate_text, h.normalize_join_iff (by simpa using h.ne_nil)
    (isEntryName_of_mem_map h.isEntryName), map_ofText_text_eq_iff]

/-- **The relative path of a normal target.** It exists strictly below the directory, where it shows
the entry names that lead down, and leads back to the target if these are texts. It also exists
where the directory consists of steps to the parent alone and the target goes further up, and for an
absolute target of the empty path. -/
theorem relativeTo_normalize_eq_some_iff (p q : FilePath) (r : String) :
    p.normalize.relativeTo q.normalize = some r ↔
      (∃ names, LeadsDown p.normalize q.normalize names ∧
        r = "/".intercalate (names.map OsString.text) ∧
        ((p.normalize.join r).normalize = q.normalize ↔ ∀ s ∈ names, s.IsUnicode)) ∨
      ∃ steps, (LeadsUp p.normalize q.normalize steps ∨ LeadsToTop p.normalize q.normalize steps) ∧
        r = "/".intercalate (steps.map (·.written.text)) := by
  have hshown (names : List OsString) :
      (names.map name).map (·.written.text) = names.map OsString.text := by
    rw [List.map_map]
    rfl
  rw [relativeTo_eq_some_iff]
  constructor
  · rintro ⟨steps, hne, hsteps, rfl⟩
    have hnormal : IsNormal (p.normalize.components ++ steps) := hsteps ▸ isNormal_normalize q
    obtain ⟨names, hnames, rfl⟩ | ⟨k, j, names, hdir, rfl⟩ | ⟨hdir, names, rfl⟩ :=
      hnormal.cases_append
    · have hdown : LeadsDown p.normalize q.normalize names := ⟨by simpa using hne, hnames, hsteps⟩
      rw [hshown]
      exact .inl ⟨names, hdown, rfl, hdown.normalize_join_shown_iff⟩
    · exact .inr ⟨_, .inl ⟨k, j, names, hdir, rfl, hsteps⟩, rfl⟩
    · exact .inr ⟨_, .inr ⟨hdir, ⟨names, rfl⟩, by rw [hsteps, hdir, List.nil_append]⟩, rfl⟩
  · rintro (⟨names, hdown, rfl, -⟩ | ⟨steps, hsteps, rfl⟩)
    · refine ⟨names.map name, by simpa using hdown.ne_nil, hdown.components_eq, ?_⟩
      rw [hshown]
    · obtain ⟨k, j, names, -, rfl, htarget⟩ | ⟨hdir, ⟨names, rfl⟩, htarget⟩ := hsteps
      · exact ⟨_, by simp [List.replicate_succ], htarget, rfl⟩
      · exact ⟨_, by simp, by rw [htarget, hdir, List.nil_append], rfl⟩

/-- A target above a relative directory has a relative path, although no names lead down to it. -/
theorem relativeTo_above :
    normalize ⟨".."⟩ = ⟨".."⟩ ∧ normalize ⟨"../../x"⟩ = ⟨"../../x"⟩ ∧
      relativeTo ⟨".."⟩ ⟨"../../x"⟩ = some "../x" ∧
      ¬ ∃ names, LeadsDown ⟨".."⟩ ⟨"../../x"⟩ names := by
  refine ⟨by decide +kernel, by decide +kernel, by decide +kernel, ?_⟩
  rintro ⟨names, hdown⟩
  have hcomponents : [up] ++ [up, name "x"] = [up] ++ names.map name := by
    rw [show [up] = components ⟨".."⟩ by decide +kernel, ← hdown.components_eq]
    decide +kernel
  have hup : up ∈ names.map name := List.append_cancel_left hcomponents ▸ List.mem_cons_self
  obtain ⟨s, -, hs⟩ := List.mem_map.1 hup
  cases hs

end RemoteImports.FilePath
