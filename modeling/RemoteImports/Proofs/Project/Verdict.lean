import RemoteImports.Proofs.Import.Requests
import RemoteImports.Proofs.Module.Listing
import RemoteImports.Proofs.Project.Exposure

/-!
# The verdict on an import

The module that an import leads to decides on the import in three steps (`verdict_eq`). A function
that is asked for, tagged and declared, but not on the surface, is a fault of the module, and the
first of them decides; then the names without a tagged function are missing; and an import of which
no name is missing passes. Whether an import passes depends only on what the statements of the
module say about the names that it asks for (`Statement.about`, `passes_congr`).
-/

namespace RemoteImports

/-! ## What a statement says -/

namespace Statement

variable {s : Statement} {name : String} {names : List String}

/-- The tagged function that a statement declares without an export. -/
def declaredName? (s : Statement) : Option String :=
  match s.kind with
  | .function ⟨name, true⟩ => some name
  | _ => none

/-- The tagged function that a statement exports in place. -/
def exportedName? (s : Statement) : Option String :=
  match s.kind with
  | .exportFunction ⟨name, true⟩ => some name
  | _ => none

theorem declaredName?_eq_some_iff :
    s.declaredName? = some name ↔ s.kind = .function ⟨name, true⟩ := by
  unfold declaredName?
  split
  · rename_i hkind
    simp [hkind]
  · rename_i hkind
    exact iff_of_false nofun (hkind name)

theorem exportedName?_eq_some_iff :
    s.exportedName? = some name ↔ s.kind = .exportFunction ⟨name, true⟩ := by
  unfold exportedName?
  split
  · rename_i hkind
    simp [hkind]
  · rename_i hkind
    exact iff_of_false nofun (hkind name)

/-- What a statement says about some names: that they are tagged functions, or that they are on the
surface as themselves. Other functions, functions without a tag, and names that are exported as
another name are passed over. -/
def about (names : List String) (s : Statement) : List StatementKind :=
  match s.kind with
  | .function ⟨name, true⟩ => if name ∈ names then [.function ⟨name, true⟩] else []
  | .exportFunction ⟨name, true⟩ => if name ∈ names then [.exportFunction ⟨name, true⟩] else []
  | .surface bindings =>
    (bindings.filter fun b => b.isSelf && names.contains b.bound).map fun b => .surface [b]
  | _ => []

/-- Where what a statement says comes from. -/
theorem mem_about_iff {kind : StatementKind} :
    kind ∈ s.about names ↔
      ∃ name ∈ names,
        kind = .function ⟨name, true⟩ ∧ s.declaredName? = some name ∨
        kind = .exportFunction ⟨name, true⟩ ∧ s.exportedName? = some name ∨
        kind = .surface [⟨name, name⟩] ∧ name ∈ s.selfBound := by
  match hkind : s.kind with
  | .function ⟨name, true⟩ | .exportFunction ⟨name, true⟩ =>
    by_cases hname : name ∈ names <;>
      simp [about, declaredName?, exportedName?, selfBound, hkind, hname]
  | .surface bindings =>
    simp only [about, declaredName?, exportedName?, selfBound, hkind, SurfaceBinding.isSelf,
      List.contains_eq_mem, List.mem_map, List.mem_filter, Bool.and_eq_true, beq_iff_eq,
      decide_eq_true_eq, reduceCtorEq, and_false, false_or, ↓existsAndEq, and_true]
    constructor
    · rintro ⟨⟨exported, bound⟩, ⟨hmem, hself, hbound⟩, rfl⟩
      obtain rfl : exported = bound := hself
      exact ⟨_, hbound, rfl, hmem, rfl⟩
    · rintro ⟨⟨exported, bound⟩, hbound, rfl, hmem, hself⟩
      obtain rfl : exported = bound := hself
      exact ⟨_, ⟨hmem, rfl, hbound⟩, rfl⟩
  | .function ⟨_, false⟩ | .exportFunction ⟨_, false⟩ | .importing _ | .proxy _ | .other =>
    simp [about, declaredName?, exportedName?, selfBound, hkind]

end Statement

namespace Module

variable {m m' : Module} {site : BackendImport} {name : String} {names : List String}
  {s : Statement}

/-- The tagged functions that a module declares without an export, in order. -/
def declaredNames (m : Module) : List String := m.statements.filterMap Statement.declaredName?

/-- The tagged functions that a module exports in place, in order. -/
def exportedNames (m : Module) : List String := m.statements.filterMap Statement.exportedName?

/-- The declared functions that are asked for and not on the surface, in order. -/
def unexportedNames (m : Module) (names : List String) : List String :=
  m.declaredNames.filter fun name => name ∈ names ∧ name ∉ m.selfBound

/-- What a module says about some names. -/
def about (m : Module) (names : List String) : List StatementKind :=
  m.statements.flatMap (·.about names)

/-- The verdict of a module on an import that leads to it. -/
def verdict (m : Module) (site : BackendImport) : Except Failure Rewrite := do
  site.rewrite (← m.exposed (some site.requested))

/-! ## The three steps -/

/-- A declared function that is asked for and not on the surface. -/
theorem filter_declaredName?_eq_some_iff {surface : List String} :
    (s.declaredName?.filter fun name => name ∈ names ∧ name ∉ surface) = some name ↔
      LacksSurface surface (some names) s name := by
  rw [Option.filter_eq_some_iff, Statement.declaredName?_eq_some_iff, decide_eq_true_eq]
  constructor
  · rintro ⟨hkind, hname, hsurface⟩
    exact ⟨hkind, isRequested_some.2 hname, hsurface⟩
  · rintro ⟨hkind, hname, hsurface⟩
    exact ⟨hkind, isRequested_some.1 hname, hsurface⟩

theorem filter_declaredName?_eq_none_iff {surface : List String} :
    (s.declaredName?.filter fun name => name ∈ names ∧ name ∉ surface) = none ↔
      IsSurfaced surface (some names) s := by
  rw [Option.eq_none_iff_forall_ne_some]
  simp only [ne_eq, filter_declaredName?_eq_some_iff]
  constructor
  · intro h
    exact (isSurfaced_or_lacksSurface surface (some names) s).resolve_right fun ⟨name, hname⟩ =>
      h name hname
  · intro h name hname
    exact hname.not_isSurfaced h

theorem exposedName?_eq_some_iff (hname : name ∈ names) :
    s.exposedName? (some names) = some name ↔
      s.exportedName? = some name ∨ s.declaredName? = some name := by
  rw [Statement.exportedName?_eq_some_iff, Statement.declaredName?_eq_some_iff]
  constructor
  · intro h
    exact (exposedName?_eq_some h).imp_right And.left
  · rintro (hkind | hkind)
    · simp [Statement.exposedName?, hkind]
    · simp [Statement.exposedName?, hkind, isRequested_some.2 hname]

/-- What a module exposes to an import, where nothing that it asks for is missing on the surface. -/
theorem exposed_of_unexportedNames (h : m.unexportedNames names = []) :
    ∃ exposed, m.exposed (some names) = .ok exposed ∧
      ∀ name ∈ names, name ∈ exposed ↔ name ∈ m.exportedNames ++ m.declaredNames := by
  rw [unexportedNames, declaredNames, List.filter_filterMap, List.filterMap_eq_nil_iff] at h
  have hsurfaced : ∀ s ∈ m.statements, IsSurfaced m.selfBound (some names) s := fun s hs =>
    filter_declaredName?_eq_none_iff.1 (h s hs)
  refine ⟨_, exposedAmong_eq_ok_iff.2 ⟨hsurfaced, rfl⟩, fun name hname => ?_⟩
  rw [List.mem_append, exportedNames, declaredNames, List.mem_filterMap, List.mem_filterMap,
    List.mem_filterMap]
  simp only [exposedName?_eq_some_iff hname, and_or_left, exists_or]

/-- The first function that is missing on the surface is the failure of the module. -/
theorem exposed_of_unexportedNames_cons {rest : List String}
    (h : m.unexportedNames names = name :: rest) :
    m.exposed (some names) = .error (.exposedNotExported name m.path) := by
  rw [unexportedNames, declaredNames, List.filter_filterMap, List.filterMap_eq_cons_iff] at h
  obtain ⟨before, s, after, hstatements, hbefore, hs, -⟩ := h
  exact exposedAmong_eq_error_iff.2 ⟨before, s, after, name, hstatements,
    fun earlier he => filter_declaredName?_eq_none_iff.1 (hbefore earlier he),
    filter_declaredName?_eq_some_iff.1 hs, rfl⟩

/-- **The verdict of a module**, by its tagged functions and its surface. -/
theorem verdict_eq (m : Module) (site : BackendImport) :
    m.verdict site =
      match m.unexportedNames site.requested with
      | name :: _ => .error (.exposedNotExported name m.path)
      | [] =>
        match site.requested.filter (· ∉ m.exportedNames ++ m.declaredNames) with
        | [] => .ok ⟨site, ⟨site.bindings, site.requested, site.filename⟩⟩
        | missing => .error (.missingExposure site.specifier missing) := by
  rw [verdict]
  split
  · rename_i name rest h
    rw [exposed_of_unexportedNames_cons h]
    rfl
  · rename_i h
    obtain ⟨exposed, hexposed, hsame⟩ := exposed_of_unexportedNames h
    rw [hexposed]
    change site.rewrite exposed = _
    have hmissing : site.requested.filter (!(m.exportedNames ++ m.declaredNames).contains ·) =
        site.requested.filter (· ∉ m.exportedNames ++ m.declaredNames) := by
      simp
    rw [BackendImport.rewrite_congr hsame, ← hmissing]
    rfl

/-! ## Modules that say the same -/

theorem unexportedNames_eq_nil_iff :
    m.unexportedNames names = [] ↔ ∀ name ∈ names, name ∈ m.declaredNames → name ∈ m.selfBound := by
  rw [unexportedNames, List.filter_eq_nil_iff]
  simp only [decide_eq_true_eq, not_and, not_not]
  exact ⟨fun h name hname hdeclared => h name hdeclared hname,
    fun h name hdeclared hname => h name hname hdeclared⟩

/-- An import passes if what it asks for is tagged, and on the surface where it is declared only. -/
theorem passes_iff_offered :
    (∃ r, m.verdict site = .ok r) ↔
      ∀ name ∈ site.requested, (name ∈ m.exportedNames ∨ name ∈ m.declaredNames) ∧
        (name ∈ m.declaredNames → name ∈ m.selfBound) := by
  have hmissing : site.requested.filter (· ∉ m.exportedNames ++ m.declaredNames) = [] ↔
      ∀ name ∈ site.requested, name ∈ m.exportedNames ∨ name ∈ m.declaredNames := by
    simp [or_iff_not_imp_left]
  simp only [imp_and, forall_and]
  rw [verdict_eq, ← hmissing, ← unexportedNames_eq_nil_iff]
  cases m.unexportedNames site.requested with
  | cons name rest => simp
  | nil =>
    cases site.requested.filter (· ∉ m.exportedNames ++ m.declaredNames) with
    | cons name rest => simp
    | nil => simp

theorem mem_declaredNames_iff (hname : name ∈ names) :
    name ∈ m.declaredNames ↔ .function ⟨name, true⟩ ∈ m.about names := by
  simp [declaredNames, about, Statement.mem_about_iff, hname]

theorem mem_exportedNames_iff (hname : name ∈ names) :
    name ∈ m.exportedNames ↔ .exportFunction ⟨name, true⟩ ∈ m.about names := by
  simp [exportedNames, about, Statement.mem_about_iff, hname]

theorem mem_selfBound_iff_about (hname : name ∈ names) :
    name ∈ m.selfBound ↔ .surface [⟨name, name⟩] ∈ m.about names := by
  simp [selfBound, about, Statement.mem_about_iff, hname]

/-- **Modules that say the same about the names that an import asks for** agree on whether it
passes. -/
theorem passes_congr
    (h : ∀ kind, kind ∈ m.about site.requested ↔ kind ∈ m'.about site.requested) :
    (∃ r, m.verdict site = .ok r) ↔ ∃ r, m'.verdict site = .ok r := by
  rw [passes_iff_offered, passes_iff_offered]
  refine forall₂_congr fun name hname => ?_
  simp only [mem_declaredNames_iff hname, mem_exportedNames_iff hname,
    mem_selfBound_iff_about hname, h]

/-- A project that finds the module behind an import takes over its verdict. -/
theorem rewriteOf_of_targets {project : Project} {tree : FileTree}
    (h : project.Targets tree site m) : project.rewriteOf tree site = m.verdict site := by
  obtain ⟨file, source, hfile, hread, hm⟩ := h
  rw [Project.rewriteOf, Project.exposedAt, hfile]
  simp only [hread]
  rw [hm]
  rfl

/-- **The verdict on an import.** The first function that is missing on the surface decides, then
the missing names. Whether the import passes depends on what the statements say about its names, not
on their order, and on no statement that says nothing about them; and the verdict is what comes of
the import in a project that finds the module behind it. -/
theorem verdict_decides (m : Module) (site : BackendImport) :
    site.requested = (site.bindings.map Binding.imported).eraseDups ∧
    (m.verdict site =
      match m.unexportedNames site.requested with
      | name :: _ => .error (.exposedNotExported name m.path)
      | [] =>
        match site.requested.filter (· ∉ m.exportedNames ++ m.declaredNames) with
        | [] => .ok ⟨site, ⟨site.bindings, site.requested, site.filename⟩⟩
        | missing => .error (.missingExposure site.specifier missing)) ∧
    (∀ m' : Module, (∀ kind, kind ∈ m.about site.requested ↔ kind ∈ m'.about site.requested) →
      ((∃ r, m.verdict site = .ok r) ↔ ∃ r, m'.verdict site = .ok r)) ∧
    (∀ m' : Module, m.statements.Perm m'.statements →
      ((∃ r, m.verdict site = .ok r) ↔ ∃ r, m'.verdict site = .ok r)) ∧
    (∀ before s after, m.statements = before ++ s :: after → s.about site.requested = [] →
      ((∃ r, m.verdict site = .ok r) ↔
        ∃ r, { m with statements := before ++ after }.verdict site = .ok r)) ∧
    ∀ (project : Project) (tree : FileTree), project.Targets tree site m →
      project.rewriteOf tree site = m.verdict site := by
  refine ⟨site.requested_eq_eraseDups, verdict_eq m site, fun m' => passes_congr,
    fun m' hperm => passes_congr fun kind => ?_, fun before s after hstatements hs =>
      passes_congr fun kind => ?_, fun project tree => rewriteOf_of_targets⟩
  · exact (hperm.flatMap_right _).mem_iff
  · simp [about, hstatements, hs]

end Module

end RemoteImports
