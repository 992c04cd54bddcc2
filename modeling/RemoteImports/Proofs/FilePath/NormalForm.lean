import RemoteImports.FilePath.Normal
import RemoteImports.Proofs.FilePath.Components

/-!
# The normal form of a path

A normal path is either absolute, with entry names only after its start, or relative, with steps to
the parent before all of its entry names (`IsNormal`). Every path is brought to this form
(`isNormal_normalize`), and an absolute path stays absolute (`normalize_of_isAbsolute`). The
invariant of the run over the components is on the stack of those that are kept, the last one on top
(`NormalStack`).
-/

namespace RemoteImports.FilePath

open Component

/-- Lists of components without dots, where a step to the parent is never preceded by a name or the
top. -/
inductive IsNormal : List Component → Prop
  | absolute {names : List OsString} (h : ∀ s ∈ names, IsEntryName s) :
      IsNormal (root :: names.map name)
  | relative (k : Nat) {names : List OsString} (h : ∀ s ∈ names, IsEntryName s) :
      IsNormal (List.replicate k up ++ names.map name)

/-- The stacks of kept components. -/
inductive NormalStack : List Component → Prop
  | top : NormalStack [root]
  | climb (k : Nat) : NormalStack (List.replicate k up)
  | push {done : List Component} {s : OsString} (h : NormalStack done) (hs : IsEntryName s) :
      NormalStack (name s :: done)

namespace NormalStack

/-- A step keeps the stack normal. -/
theorem stepNormal {done : List Component} {c : Component} (h : NormalStack done)
    (hc : IsInner c) : NormalStack (stepNormal done c) := by
  match c, hc with
  | name s, hs => exact h.push hs
  | up, _ =>
    cases h with
    | top => exact .top
    | climb k =>
      cases k with
      | zero => exact .climb 1
      | succ k => exact .climb (k + 2)
    | push h _ => exact h

theorem foldl_stepNormal {done steps : List Component} (h : NormalStack done)
    (hsteps : ∀ c ∈ steps, IsInner c) : NormalStack (steps.foldl FilePath.stepNormal done) := by
  induction steps generalizing done with
  | nil => exact h
  | cons c rest ih =>
    exact ih (h.stepNormal (hsteps c (by simp))) fun d hd => hsteps d (by simp [hd])

theorem isNormal_reverse {done : List Component} (h : NormalStack done) :
    IsNormal done.reverse := by
  induction h with
  | top => exact @IsNormal.absolute [] (by simp)
  | climb k =>
    have := @IsNormal.relative k [] (by simp)
    simpa using this
  | @push done s _ hs ih =>
    rw [List.reverse_cons]
    generalize done.reverse = kept at ih
    have hnames : ∀ names : List OsString, (∀ t ∈ names, IsEntryName t) →
        ∀ t ∈ names ++ [s], IsEntryName t := by
      intro names h t ht
      rcases List.mem_append.1 ht with ht | ht
      · exact h t ht
      · exact List.mem_singleton.1 ht ▸ hs
    cases ih with
    | absolute h => simpa using IsNormal.absolute (hnames _ h)
    | relative k h => simpa using IsNormal.relative k (hnames _ h)

end NormalStack

/-! ## Normalized paths -/

theorem normalStack_foldl_start {start : List Component} (h : IsStart start) :
    NormalStack (start.foldl stepNormal []) := by
  rcases h with rfl | rfl | rfl
  · exact .top
  · exact .climb 0
  · exact .climb 0

theorem isNormal_normalComponents (p : FilePath) : IsNormal (normalComponents p.components) := by
  obtain ⟨start, inner, hstart, hinner, hp⟩ := p.components_shape
  rw [hp, normalComponents, List.foldl_append]
  exact ((normalStack_foldl_start hstart).foldl_stepNormal hinner).isNormal_reverse

theorem isInner_of_mem_names {names : List OsString} (h : ∀ s ∈ names, IsEntryName s) :
    ∀ c ∈ names.map name, IsInner c := by
  intro c hc
  obtain ⟨s, hs, rfl⟩ := List.mem_map.1 hc
  exact h s hs

/-- A normal list of components is read back from its text. -/
theorem IsNormal.components_ofComponents {steps : List Component} (h : IsNormal steps) :
    (ofComponents steps).components = steps := by
  cases h with
  | absolute h => exact components_ofComponents_root (isInner_of_mem_names h)
  | relative k h =>
    refine FilePath.components_ofComponents fun c hc => ?_
    rcases List.mem_append.1 hc with hc | hc
    · obtain rfl := List.eq_of_mem_replicate hc
      exact isInner_up
    · exact isInner_of_mem_names h c hc

theorem components_normalize (p : FilePath) :
    p.normalize.components = normalComponents p.components :=
  (isNormal_normalComponents p).components_ofComponents

/-- **Normalization reaches the normal form.** -/
theorem isNormal_normalize (p : FilePath) : IsNormal p.normalize.components := by
  rw [components_normalize]
  exact isNormal_normalComponents p

theorem normalize_eq_ofComponents (p : FilePath) :
    p.normalize = ofComponents p.normalize.components := by
  rw [components_normalize]
  rfl

/-! ## Absolute paths -/

/-- The top is never popped. -/
theorem getLast?_stepNormal {done : List Component} (c : Component)
    (h : done.getLast? = some root) : (stepNormal done c).getLast? = some root := by
  obtain ⟨d, rest, rfl⟩ := List.exists_cons_of_ne_nil (show done ≠ [] by rintro rfl; simp at h)
  cases c with
  | here => exact h
  | root => simpa [stepNormal] using h
  | name s => simpa [stepNormal] using h
  | up =>
    cases d with
    | name s =>
      cases rest with
      | nil => simp at h
      | cons e rest => simpa [stepNormal] using h
    | root => exact h
    | here => simpa [stepNormal] using h
    | up => simpa [stepNormal] using h

theorem getLast?_foldl_stepNormal {done : List Component} (steps : List Component)
    (h : done.getLast? = some root) : (steps.foldl stepNormal done).getLast? = some root := by
  induction steps generalizing done with
  | nil => exact h
  | cons c rest ih => exact ih (getLast?_stepNormal c h)

theorem head?_normalComponents_root (steps : List Component) :
    (normalComponents (root :: steps)).head? = some root := by
  rw [normalComponents, List.head?_reverse]
  exact getLast?_foldl_stepNormal steps (show [root].getLast? = some root from rfl)

/-- A normal list of components that starts at the top has only entry names after it. -/
theorem IsNormal.names_of_head? {steps : List Component} (h : IsNormal steps)
    (hroot : steps.head? = some root) :
    ∃ names : List OsString, (∀ s ∈ names, IsEntryName s) ∧ steps = root :: names.map name := by
  cases h with
  | absolute h => exact ⟨_, h, rfl⟩
  | @relative k names h =>
    cases k with
    | succ k => simp [List.replicate_succ] at hroot
    | zero => cases names <;> simp at hroot

theorem foldl_stepNormal_names (done : List Component) (names : List OsString) :
    (names.map name).foldl stepNormal done = (names.map name).reverse ++ done := by
  induction names generalizing done with
  | nil => rfl
  | cons s names ih =>
    rw [List.map_cons, List.foldl_cons, ih, List.reverse_cons, List.append_assoc]
    rfl

/-- Entry names after the top are in normal form already. -/
theorem normalComponents_names (names : List OsString) :
    normalComponents (root :: names.map name) = root :: names.map name := by
  rw [normalComponents, List.foldl_cons, foldl_stepNormal_names, List.reverse_append,
    List.reverse_reverse]
  rfl

theorem normalize_of_head? {p : FilePath} (hroot : p.normalize.components.head? = some root) :
    ∃ names : List OsString, (∀ s ∈ names, IsEntryName s) ∧
      p.normalize = ofComponents (root :: names.map name) := by
  obtain ⟨names, hnames, hp⟩ := (isNormal_normalize p).names_of_head? hroot
  exact ⟨names, hnames, by rw [normalize_eq_ofComponents, hp]⟩

/-- **An absolute path stays absolute**, and only entry names remain after its start. -/
theorem normalize_of_isAbsolute {p : FilePath} (h : p.isAbsolute) :
    ∃ names : List OsString, (∀ s ∈ names, IsEntryName s) ∧
      p.normalize = ofComponents (root :: names.map name) := by
  obtain ⟨inner, -, hp⟩ := components_of_isAbsolute h
  apply normalize_of_head?
  rw [components_normalize, hp]
  exact head?_normalComponents_root inner

theorem isAbsolute_ofComponents_root (steps : List Component) :
    (ofComponents (root :: steps)).isAbsolute := by
  rw [isAbsolute, ofComponents]
  rfl

end RemoteImports.FilePath
