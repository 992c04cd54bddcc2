import RemoteImports.Proofs.Module.Untouched
import RemoteImports.Proofs.Project.Names

/-!
# Rewriting again

A rewritten module is at rest (`rewritten_stable`). None of the statements that a rewriting
generates is an import from the backend (`ofStatement?_of_isGenerated`), and each import from the
backend made way for some, so there is nothing left to plan (`backendImports_rewrite?`). No file is
looked at for that: the module stays as it is even when its backend is gone.
-/

namespace RemoteImports

/-- A generated statement is no import that a proxy can stand for. -/
theorem Statement.IsGenerated.not_isEligible {s : Statement} {decl : ImportDecl}
    (h : s.IsGenerated) (hkind : s.kind = .importing decl) : ¬ BackendImport.isEligible decl := by
  cases h with
  | runtime h =>
    -- the specifier of the runtime does not start with a dot
    obtain rfl := StatementKind.importing.inj (hkind.symm.trans h)
    decide
  | types specifier bindings h =>
    obtain rfl := StatementKind.importing.inj (hkind.symm.trans h)
    rw [BackendImport.isEligible_iff]
    rintro ⟨-, hnames⟩
    cases hnames.not_typeOnly
  | proxy decl h => cases hkind.symm.trans h

namespace BackendImport

variable {importer backendRoot : FilePath} {position : Nat} {s : Statement} {site : BackendImport}

theorem ofStatement?_of_isGenerated (h : s.IsGenerated) :
    ofStatement? importer backendRoot position s = none := by
  cases hsite : ofStatement? importer backendRoot position s with
  | none => rfl
  | some site =>
    obtain ⟨decl, hkind, heligible, -⟩ := ofStatement?_eq_some hsite
    exact absurd heligible (h.not_isEligible hkind)

/-- An import from the backend is one at every position. -/
theorem exists_ofStatement?_position (h : ofStatement? importer backendRoot position s = some site)
    (other : Nat) : ∃ site', ofStatement? importer backendRoot other s = some site' := by
  -- what makes a statement one does not mention the position
  have hsome := isSome_ofStatement?_iff.1 (Option.isSome_iff_exists.2 ⟨site, h⟩)
  exact Option.isSome_iff_exists.1 (isSome_ofStatement?_iff.2 hsome)

end BackendImport

namespace Project

variable {project : Project} {tree : FileTree} {m m' : Module} {rewrites : List Rewrite}

/-- A statement that a plan is not about is no import from the backend. -/
theorem ofStatement?_of_unplanned (h : project.plan tree m = .ok rewrites) {i position : Nat}
    {s : Statement} (hs : m.statements[i]? = some s)
    (hnone : ∀ r ∈ rewrites, r.site.position ≠ i) :
    BackendImport.ofStatement? (project.absolute m.path) project.backendRoot position s = none := by
  cases hsite : BackendImport.ofStatement? (project.absolute m.path) project.backendRoot position s
    with
  | none => rfl
  | some site =>
    obtain ⟨site', hsite'⟩ := BackendImport.exists_ofStatement?_position hsite i
    obtain ⟨hmem, hposition⟩ := accepts_iff_mem.1 ⟨s, hs, hsite'⟩
    rw [← map_site_of_plan h] at hmem
    obtain ⟨r, hr, rfl⟩ := List.mem_map.1 hmem
    exact absurd hposition (hnone r hr)

/-- **No import from the backend is left** in a module after its plan is carried out. -/
theorem backendImports_rewrite? (h : project.plan tree m = .ok rewrites)
    (hm : m.rewrite? rewrites = some m') : project.backendImports m' = [] := by
  have hinOrder := inOrder_of_plan h
  refine List.eq_nil_iff_forall_not_mem.2 fun site hsite => ?_
  obtain ⟨s, hs, haccepted⟩ := mem_backendImports_iff.1 hsite
  rw [Module.path_rewrite? hinOrder hm] at haccepted
  have hnone : BackendImport.ofStatement? (project.absolute m.path) project.backendRoot
      site.position s = none := by
    rcases Module.mem_statements_rewrite? hinOrder hm (List.mem_of_getElem? hs) with
      hgenerated | ⟨i, hold, hunplanned⟩
    · exact BackendImport.ofStatement?_of_isGenerated hgenerated
    · exact ofStatement?_of_unplanned h hold hunplanned
  cases hnone.symm.trans haccepted

/-- A module without imports from the backend stays as it is, whatever the files are. -/
theorem run_rewriteInPlace_of_backendImports (h : project.backendImports m = [])
    (tree : FileTree) :
    project.plan tree m = .ok [] ∧ (project.rewriteInPlace tree).run.run m = (.ok [], m) ∧
      project.apply tree m = .ok (m, []) := by
  have hplan : project.plan tree m = .ok [] := by rw [plan, h, rewritesOf]
  have hrun : (project.rewriteInPlace tree).run.run m = (.ok [], m) := by
    rw [run_rewriteInPlace, hplan]
    rfl
  exact ⟨hplan, hrun, by rw [apply, hrun]⟩

/-- **A rewritten module is stable.** Whatever has become of the files, there is nothing more to do,
and whatever is asked for, the module exposes what it did, or fails as it did. -/
theorem rewritten_stable (h : project.apply tree m = .ok (m', rewrites)) :
    (∀ later : FileTree, project.plan later m' = .ok [] ∧
      (project.rewriteInPlace later).run.run m' = (.ok [], m') ∧
      project.apply later m' = .ok (m', [])) ∧
    ∀ requested, m'.exposed requested = m.exposed requested := by
  obtain ⟨hplan, hm⟩ := apply_eq_ok h
  refine ⟨run_rewriteInPlace_of_backendImports (backendImports_rewrite? hplan hm), ?_⟩
  refine Module.exposed_rewrite? (inOrder_of_plan hplan) (fun r hr s hs => ?_) hm
  obtain ⟨s', decl, hs', hreplaces⟩ := replaces_of_mem_plan hplan hr
  obtain rfl := Option.some.inj (hs.symm.trans hs')
  exact .inl ⟨decl, hreplaces.kind_eq⟩

/-- The module that calls the clock, rewritten, stays as it is when the clock is gone. -/
theorem rewritten_clockModule_stable :
    ∃ m', clockProject.apply clockTree clockModule = .ok (m', [clockRewrite]) ∧
      clockProject.plan FileTree.empty m' = .ok [] ∧
      clockProject.apply FileTree.empty m' = .ok (m', []) ∧
      m'.exposed none = clockModule.exposed none := by
  obtain ⟨hstable, hexposed⟩ := rewritten_stable apply_clockModule
  obtain ⟨hplan, -, happly⟩ := hstable FileTree.empty
  exact ⟨_, apply_clockModule, hplan, happly, hexposed none⟩

end Project

end RemoteImports
