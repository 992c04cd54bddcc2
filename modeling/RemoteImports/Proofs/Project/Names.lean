import RemoteImports.Proofs.Module.Names
import RemoteImports.Proofs.Project.Transform

/-!
# Names after rewriting

Rewriting a module in place keeps its names in scope (`names_preserved`): the proxy of an import
binds the values that it named, an import of types binds the types, and every other statement stays.
The only name that comes in is the one of the proxy factory. It comes in whether or not the module
binds it already, so the names stay distinct exactly if the module did not bind it
(`nodup_bound_apply_iff`); `factory_bound_twice` is a module that did.
-/

namespace RemoteImports

/-- The statements in the place of an import bind each of its names to what it stood for: a value by
the proxy, a type by an import of types from the same module. -/
structure Rewrite.Rebinds (r : Rewrite) (decl : ImportDecl) (new : List Statement) : Prop where
  named : ∀ specifier ∈ decl.specifiers, ∃ binding typeOnly, specifier = .named binding typeOnly
  value : ∀ binding, .named binding false ∈ decl.specifiers →
    binding ∈ r.proxy.bindings ∧ ∃ s ∈ new, s.kind = .proxy r.proxy ∧ s.text = r.proxy.text
  type : ∀ binding, .named binding true ∈ decl.specifiers →
    ∃ bindings, binding ∈ bindings ∧ ∃ s ∈ new,
      s.kind = .importing ⟨decl.source, true, bindings.map (.named · false)⟩ ∧
      s.text = (typeImport decl.source bindings).text

/-- Placing a statement changes its layout only. -/
theorem Statement.exists_mem_placed {s new : Statement} {statements : List Statement}
    (h : new ∈ statements) :
    ∃ s' ∈ s.placed statements, s'.kind = new.kind ∧ s'.text = new.text := by
  cases statements with
  | nil => simp at h
  | cons first rest =>
    rcases List.mem_cons.1 h with rfl | h
    · exact ⟨_, List.mem_cons_self, rfl, rfl⟩
    · exact ⟨_, List.mem_cons_of_mem _ (List.mem_map_of_mem h), rfl, rfl⟩

/-- What is generated for an import binds its names, wherever it is placed and whatever comes with
it. -/
theorem Rewrite.Replaces.rebinds {r : Rewrite} {s old : Statement} {decl : ImportDecl}
    {new : List Statement} (h : r.Replaces s decl) (hnew : ∀ s ∈ r.statements, s ∈ new) :
    r.Rebinds decl (old.placed new) := by
  refine ⟨h.parted.named, fun binding hvalue => ⟨?_, ?_⟩, fun binding htype => ?_⟩
  · rw [h.bindings_eq]
    exact h.parted.mem_values_iff.2 hvalue
  · have hproxy : r.proxy.statement ∈ r.statements := by simp [Rewrite.statements]
    exact Statement.exists_mem_placed (hnew _ hproxy)
  · have hbinding : binding ∈ r.site.typeBindings := h.parted.mem_types_iff.2 htype
    have htypes : typeImport decl.source r.site.typeBindings ∈ r.statements := by
      rw [Rewrite.statements, if_neg (List.ne_nil_of_mem hbinding), h.specifier_eq]
      exact List.mem_append_left _ List.mem_cons_self
    exact ⟨_, hbinding, Statement.exists_mem_placed (hnew _ htypes)⟩

namespace Project

variable {project : Project} {tree : FileTree} {m m' : Module} {rewrites : List Rewrite}
  {r : Rewrite}

/-- A planned rewrite is made for the statement at its position. -/
theorem replaces_of_mem_plan (h : project.plan tree m = .ok rewrites) (hr : r ∈ rewrites) :
    ∃ s decl, m.statements[r.site.position]? = some s ∧ r.Replaces s decl := by
  obtain ⟨⟨s, hs, hsite⟩, hrewrite⟩ := rewriteOf_of_mem_plan h hr
  obtain ⟨decl, hkind, heligible, -, -, hspecifier, -⟩ := BackendImport.ofStatement?_eq_some hsite
  obtain ⟨decl', hkind', hparted⟩ := BackendImport.parted_of_ofStatement? hsite
  obtain rfl : decl = decl' := StatementKind.importing.inj (hkind.symm.trans hkind')
  obtain ⟨exposed, -, hr⟩ := rewriteOf_eq_ok_iff.1 hrewrite
  obtain ⟨-, hr⟩ := BackendImport.rewrite_eq_ok_iff.1 hr
  refine ⟨s, decl, hs, hkind, (BackendImport.isEligible_iff.1 heligible).1, hspecifier, hparted, ?_⟩
  rw [hr]

/-- The statements that take the place of one, if a plan is carried out. -/
theorem rebinds_rewrittenAt (h : project.plan tree m = .ok rewrites) (hr : r ∈ rewrites)
    {i : Nat} {s : Statement} (hs : m.statements[i]? = some s) (hposition : r.site.position = i) :
    ∃ decl, s.kind = .importing decl ∧ r.Rebinds decl (Module.rewrittenAt rewrites i s) := by
  obtain ⟨s', decl, hs', hreplaces⟩ := replaces_of_mem_plan h hr
  rw [hposition] at hs'
  obtain rfl := Option.some.inj (hs.symm.trans hs')
  refine ⟨decl, hreplaces.kind_eq, ?_⟩
  have hfind : rewrites.find? (·.site.position = i) = some r :=
    hposition ▸ (inOrder_of_plan h).find?_position hr
  unfold Module.rewrittenAt
  rw [hfind]
  exact hreplaces.rebinds fun new hnew => List.mem_append_right _ hnew

/-- **Names in scope are preserved.** The names bound after the rewriting are those bound before and
the factory, and every statement has its place in the result. In a module that was read, all names
bound before are names of imports. -/
theorem names_preserved (h : project.apply tree m = .ok (m', rewrites)) (hne : rewrites ≠ []) :
    m'.bound.Perm (runtimeFactory :: m.bound) ∧
    (∀ p source, Module.parse p source = .ok m → m.bound = m.imported) ∧
    ∃ become : Nat → Statement → List Statement,
      m'.statements = Module.replaceEach become 0 m.statements ∧
      ∀ i s, m.statements[i]? = some s →
        ((∀ r ∈ rewrites, r.site.position ≠ i) → become i s = [s]) ∧
        ∀ r ∈ rewrites, r.site.position = i →
          ∃ decl, s.kind = .importing decl ∧ r.Rebinds decl (become i s) := by
  obtain ⟨hplan, hm⟩ := apply_eq_ok h
  have hinOrder := inOrder_of_plan hplan
  refine ⟨?_, fun p source hp => ?_, Module.rewrittenAt rewrites, ?_, fun i s hs => ⟨?_, ?_⟩⟩
  · exact Module.perm_bound_rewrite? hinOrder hne (fun r hr => replaces_of_mem_plan hplan hr) hm
  · exact Module.bound_eq_imported (Module.kind_ne_proxy_of_parse hp)
  · rw [← Option.some.inj ((Module.rewrite?_eq hinOrder).symm.trans hm)]
  · exact Module.rewrittenAt_of_notMem s
  · intro r hr hposition
    exact rebinds_rewrittenAt hplan hr hs hposition

theorem apply_clockModule :
    clockProject.apply clockTree clockModule =
      .ok ((clockModule.rewrite? [clockRewrite]).getD clockModule, [clockRewrite]) := by
  rw [apply, run_rewriteInPlace, plan_clockModule]

/-- The module that calls the clock, rewritten, binds what it bound and the factory. -/
theorem bound_clockModule_apply :
    ∃ m', clockProject.apply clockTree clockModule = .ok (m', [clockRewrite]) ∧
      m'.bound.Perm ["createRuntime", "now", "time", "Zone"] :=
  ⟨_, apply_clockModule, (names_preserved apply_clockModule (by simp)).1⟩

/-! ## Distinct names -/

/-- **The names stay distinct exactly if the factory is a new one.** A rewriting that changes
anything binds the factory once more than the module did, and imports the runtime once more. -/
theorem nodup_bound_apply_iff (h : project.apply tree m = .ok (m', rewrites)) :
    (m'.bound.Nodup ↔ m.bound.Nodup ∧ (rewrites ≠ [] → runtimeFactory ∉ m.bound)) ∧
    (rewrites ≠ [] →
      m'.bound.count runtimeFactory = m.bound.count runtimeFactory + 1 ∧
      m'.runtimeImports.length = m.runtimeImports.length + 1) := by
  obtain ⟨hplan, hm⟩ := apply_eq_ok h
  have hinOrder := inOrder_of_plan hplan
  have hreplaces := fun r hr => replaces_of_mem_plan (r := r) hplan hr
  rcases eq_or_ne rewrites [] with rfl | hne
  · obtain rfl : m = m' := Option.some.inj hm
    simp
  · have hbound := Module.perm_bound_rewrite? hinOrder hne hreplaces hm
    have hruntime := Module.perm_runtimeImports_rewrite? hinOrder hne hreplaces hm
    refine ⟨?_, fun _ => ⟨?_, ?_⟩⟩
    · rw [hbound.nodup_iff, List.nodup_cons]
      constructor
      · rintro ⟨hfree, hnodup⟩
        exact ⟨hnodup, fun _ => hfree⟩
      · rintro ⟨hnodup, hfree⟩
        exact ⟨hfree hne, hnodup⟩
    · rw [hbound.count_eq, List.count_cons_self]
    · rw [hruntime.length_eq, List.length_cons]

theorem nodup_bound_clockModule_apply :
    ∃ m', clockProject.apply clockTree clockModule = .ok (m', [clockRewrite]) ∧ m'.bound.Nodup ∧
      m'.bound.count "createRuntime" = 1 ∧ m'.runtimeImports.length = 1 := by
  obtain ⟨hnodup, hcount⟩ := nodup_bound_apply_iff apply_clockModule
  exact ⟨_, apply_clockModule, hnodup.2 (by decide), hcount (by simp)⟩

/-- A source text that was rewritten once and then got another import. -/
def editedSource : String :=
  "import \x7b createRuntime \x7d from \"@reshuffle/fetch-runtime\";\n" ++
  "import \x7b now \x7d from '../backend/clock';\n"

/-- **A module that binds the factory before it is rewritten binds it twice afterwards**, although
the names that it imports are distinct. -/
theorem factory_bound_twice :
    ∃ m m' rewrites, Module.parse ⟨"src/main.ts"⟩ editedSource = .ok m ∧
      clockProject.apply clockTree m = .ok (m', rewrites) ∧ m.bound.Nodup ∧
      ¬ m'.bound.Nodup ∧ m'.runtimeImports.length = 2 := by
  have hrun : (do
      let m ← Module.parse ⟨"src/main.ts"⟩ editedSource
      let applied ← clockProject.apply clockTree m
      .ok (m.bound, applied.1.bound, applied.1.runtimeImports) : Except Failure _) =
        .ok (["createRuntime", "now"], ["createRuntime", "createRuntime", "now"],
          [runtimeModule, runtimeModule]) := by
    decide +kernel
  obtain ⟨m, hm, hrun⟩ := bind_eq_ok_iff.1 hrun
  obtain ⟨⟨m', rewrites⟩, happly, hrun⟩ := bind_eq_ok_iff.1 hrun
  obtain ⟨hbound, hbound', hruntime⟩ :
      m.bound = _ ∧ m'.bound = _ ∧ m'.runtimeImports = _ := by simpa using hrun
  refine ⟨m, m', rewrites, hm, happly, ?_, ?_, ?_⟩
  · rw [hbound]
    decide
  · rw [hbound']
    decide
  · rw [hruntime]
    rfl

end Project

end RemoteImports
