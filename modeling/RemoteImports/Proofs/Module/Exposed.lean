import RemoteImports.Module.Exposed
import RemoteImports.Proofs.Outcome

/-!
# What a module exposes

The exposed functions of a module are exactly the tagged ones that are exported in place or asked
for, and the latter all stand on the surface (`exposedAmong_eq_ok_iff`); the first that does not
stand there decides on the failure (`exposedAmong_eq_error_iff`). So whatever is in the list is
offered by the module: tagged, and exported one way or the other (`offers_of_mem_exposed`).
-/

namespace RemoteImports

/-- The name that a statement adds to the exposed functions, given the names that are asked for. -/
def Statement.exposedName? (requested : Option (List String)) (s : Statement) : Option String :=
  match s.kind with
  | .function ⟨name, true⟩ => if Module.isRequested requested name then some name else none
  | .exportFunction ⟨name, true⟩ => some name
  | _ => none

namespace Module

/-- A module offers a function: it is tagged, and it is exported in place or by a binding of its
name to itself on the surface. -/
def Offers (m : Module) (name : String) : Prop :=
  (∃ s ∈ m.statements, s.kind = .exportFunction ⟨name, true⟩) ∨
    (∃ s ∈ m.statements, s.kind = .function ⟨name, true⟩) ∧
      ∃ s ∈ m.statements, ∃ bindings, s.kind = .surface bindings ∧ ⟨name, name⟩ ∈ bindings

theorem mem_selfBound_iff {m : Module} {name : String} :
    name ∈ m.selfBound ↔
      ∃ s ∈ m.statements, ∃ bindings, s.kind = .surface bindings ∧ ⟨name, name⟩ ∈ bindings := by
  rw [selfBound, List.mem_flatMap]
  refine exists_congr fun s => and_congr_right fun _ => ?_
  unfold Statement.selfBound
  split
  · rename_i bindings hkind
    simp only [hkind, List.mem_map, List.mem_filter, SurfaceBinding.isSelf, beq_iff_eq]
    constructor
    · rintro ⟨⟨exported, bound⟩, ⟨hmem, hself⟩, rfl⟩
      dsimp only at hself
      subst hself
      exact ⟨bindings, rfl, hmem⟩
    · rintro ⟨bindings', hbindings, hmem⟩
      cases hbindings
      exact ⟨⟨name, name⟩, ⟨hmem, rfl⟩, rfl⟩
  · rename_i hkind
    constructor
    · intro h
      cases h
    · rintro ⟨bindings, hsurface, -⟩
      exact absurd hsurface (hkind bindings)

variable {path : FilePath} {surface : List String} {requested : Option (List String)}
  {statements : List Statement} {names : List String}

/-- What the surface owes to a statement. -/
def IsSurfaced (surface : List String) (requested : Option (List String)) (s : Statement) : Prop :=
  ∀ name, s.kind = .function ⟨name, true⟩ → isRequested requested name → name ∈ surface

/-- A statement whose function the surface owes and does not have. -/
structure LacksSurface (surface : List String) (requested : Option (List String)) (s : Statement)
    (name : String) : Prop where
  kind_eq : s.kind = .function ⟨name, true⟩
  requested : isRequested requested name
  notMem : name ∉ surface

theorem LacksSurface.not_isSurfaced {s : Statement} {name : String}
    (h : LacksSurface surface requested s name) : ¬ IsSurfaced surface requested s :=
  fun hs => h.notMem (hs name h.kind_eq h.requested)

theorem isSurfaced_or_lacksSurface (surface : List String) (requested : Option (List String))
    (s : Statement) :
    IsSurfaced surface requested s ∨ ∃ name, LacksSurface surface requested s name := by
  by_cases h : ∃ name, LacksSurface surface requested s name
  · exact .inr h
  · refine .inl fun name hkind hrequested => ?_
    by_cases hmem : name ∈ surface
    · exact hmem
    · exact absurd ⟨name, hkind, hrequested, hmem⟩ h

/-! ## One statement more -/

/-- A statement to which the surface owes nothing puts its name, if it has one to add, before those
of the others. -/
theorem exposedAmong_cons_of_isSurfaced {s : Statement} {rest : List Statement}
    (h : IsSurfaced surface requested s) :
    exposedAmong path surface requested (s :: rest) =
      (exposedAmong path surface requested rest).map ((s.exposedName? requested).toList ++ ·) := by
  have hid (x : Except Failure (List String)) : x.map ([] ++ ·) = x := by cases x <;> rfl
  match hkind : s.kind with
  | .function ⟨name, true⟩ =>
    simp only [exposedAmong, Statement.exposedName?, hkind]
    by_cases hrequested : isRequested requested name
    · have hmem : surface.contains name := by simpa using h name hkind hrequested
      simp only [hrequested, hmem, if_true]
      rfl
    · simp only [hrequested, Bool.false_eq_true, if_false]
      exact (hid _).symm
  | .exportFunction ⟨name, true⟩ =>
    simp only [exposedAmong, Statement.exposedName?, hkind]
    rfl
  | .function ⟨_, false⟩ | .exportFunction ⟨_, false⟩ | .importing _ | .surface _ | .proxy _
  | .other =>
    simp only [exposedAmong, Statement.exposedName?, hkind]
    exact (hid _).symm

/-- A function that is missing on the surface ends the search. -/
theorem exposedAmong_cons_of_lacksSurface {s : Statement} {rest : List Statement} {name : String}
    (h : LacksSurface surface requested s name) :
    exposedAmong path surface requested (s :: rest) = .error (.exposedNotExported name path) := by
  simp [exposedAmong, h.kind_eq, h.requested, h.notMem]

/-! ## All statements -/

/-- **The exposed functions among some statements.** -/
theorem exposedAmong_eq_ok_iff :
    exposedAmong path surface requested statements = .ok names ↔
      (∀ s ∈ statements, IsSurfaced surface requested s) ∧
        names = statements.filterMap (·.exposedName? requested) := by
  induction statements generalizing names with
  | nil =>
    constructor
    · intro h
      cases h
      simp
    · rintro ⟨-, rfl⟩
      rfl
  | cons s rest ih =>
    rw [List.forall_mem_cons]
    rcases isSurfaced_or_lacksSurface surface requested s with hs | ⟨name, hs⟩
    · have hnames : (s :: rest).filterMap (·.exposedName? requested) =
          (s.exposedName? requested).toList ++ rest.filterMap (·.exposedName? requested) := by
        cases hname : s.exposedName? requested <;> simp [hname]
      rw [exposedAmong_cons_of_isSurfaced hs, map_eq_ok_iff, hnames]
      constructor
      · rintro ⟨more, hmore, rfl⟩
        obtain ⟨hrest, rfl⟩ := ih.1 hmore
        exact ⟨⟨hs, hrest⟩, rfl⟩
      · rintro ⟨⟨-, hrest⟩, rfl⟩
        exact ⟨_, ih.2 ⟨hrest, rfl⟩, rfl⟩
    · rw [exposedAmong_cons_of_lacksSurface hs]
      exact iff_of_false nofun fun h => hs.not_isSurfaced h.1.1

/-- **The first function that is missing on the surface decides** on a failure. -/
theorem exposedAmong_eq_error_iff {failure : Failure} :
    exposedAmong path surface requested statements = .error failure ↔
      ∃ before s after name, statements = before ++ s :: after ∧
        (∀ earlier ∈ before, IsSurfaced surface requested earlier) ∧
        LacksSurface surface requested s name ∧ failure = .exposedNotExported name path := by
  induction statements with
  | nil =>
    refine iff_of_false nofun ?_
    rintro ⟨before, s, after, name, hstatements, -⟩
    simp at hstatements
  | cons first rest ih =>
    rcases isSurfaced_or_lacksSurface surface requested first with hfirst | ⟨name, hfirst⟩
    · rw [exposedAmong_cons_of_isSurfaced hfirst, map_eq_error_iff, ih]
      constructor
      · rintro ⟨before, s, after, name, rfl, hbefore, hs, hfailure⟩
        exact ⟨first :: before, s, after, name, rfl, List.forall_mem_cons.2 ⟨hfirst, hbefore⟩, hs,
          hfailure⟩
      · rintro ⟨before, s, after, name, hstatements, hbefore, hs, hfailure⟩
        rcases List.cons_eq_append_iff.1 hstatements with ⟨rfl, hcons⟩ | ⟨before', rfl, rfl⟩
        · cases hcons
          exact absurd hfirst hs.not_isSurfaced
        · exact ⟨before', s, after, name, rfl, (List.forall_mem_cons.1 hbefore).2, hs, hfailure⟩
    · rw [exposedAmong_cons_of_lacksSurface hfirst]
      constructor
      · intro h
        cases h
        exact ⟨[], first, rest, name, rfl, by simp, hfirst, rfl⟩
      · rintro ⟨before, s, after, name', hstatements, hbefore, hs, rfl⟩
        rcases List.cons_eq_append_iff.1 hstatements with ⟨rfl, hcons⟩ | ⟨before', rfl, -⟩
        · cases hcons
          cases hfirst.kind_eq.symm.trans hs.kind_eq
          rfl
        · exact absurd (hbefore first List.mem_cons_self) hfirst.not_isSurfaced

theorem exposedName?_eq_some {s : Statement} {name : String}
    (h : s.exposedName? requested = some name) :
    s.kind = .exportFunction ⟨name, true⟩ ∨
      s.kind = .function ⟨name, true⟩ ∧ isRequested requested name := by
  unfold Statement.exposedName? at h
  split at h
  · rename_i name' hkind
    split at h
    · rename_i hrequested
      cases h
      exact .inr ⟨hkind, hrequested⟩
    · cases h
  · rename_i name' hkind
    cases h
    exact .inl hkind
  · cases h

/-- **Whatever is exposed is offered.** -/
theorem offers_of_mem_exposed {m : Module} {name : String} (h : m.exposed requested = .ok names)
    (hname : name ∈ names) : m.Offers name := by
  obtain ⟨hsurface, rfl⟩ := exposedAmong_eq_ok_iff.1 h
  obtain ⟨s, hs, hsome⟩ := List.mem_filterMap.1 hname
  rcases exposedName?_eq_some hsome with hkind | ⟨hkind, hrequested⟩
  · exact .inl ⟨s, hs, hkind⟩
  · exact .inr ⟨⟨s, hs, hkind⟩, mem_selfBound_iff.1 (hsurface s hs name hkind hrequested)⟩

end Module

end RemoteImports
