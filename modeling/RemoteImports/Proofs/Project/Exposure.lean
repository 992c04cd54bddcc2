import RemoteImports.Proofs.Module.Exposed
import RemoteImports.Proofs.Project.Plan

/-!
# Exposure

A proxy names only functions that its target offers (`Targets`), each once, and all that its
bindings need; and the bindings are those that the import statement makes (`exposure_sound`). A
resolved target is a module that was read and parsed (`resolve_eq_ok`), and its exposed functions
are among those that it offers.
-/

namespace RemoteImports.Project

variable {project : Project} {tree : FileTree} {m : Module} {site : BackendImport}
  {exposed : List String} {rewrites : List Rewrite} {r : Rewrite}

/-- The functions that a module exposes, with the file that it was read from. -/
theorem exposedAt_eq_ok_iff {target : FilePath} {specifier : String}
    {requested : Option (List String)} {extensions names : List String} :
    exposedAt tree target specifier requested extensions = .ok names ↔
      ∃ file source m, tree.moduleFile? target extensions = some file ∧
        tree.read file = .ok source ∧ Module.parse file source = .ok m ∧
        m.exposed requested = .ok names := by
  unfold exposedAt
  split
  · rename_i hfile
    simp [hfile]
  · rename_i file hfile
    split
    · rename_i fault hread
      simp [hfile, hread]
    · rename_i source hread
      rw [bind_eq_ok_iff]
      constructor
      · rintro ⟨m, hm, hexposed⟩
        exact ⟨file, source, m, hfile, hread, hm, hexposed⟩
      · rintro ⟨file', source', m, hfile', hread', hm, hexposed⟩
        cases hfile.symm.trans hfile'
        cases hread.symm.trans hread'
        exact ⟨m, hm, hexposed⟩

/-- The module that an import leads to: its file is found, read and parsed. -/
def Targets (project : Project) (tree : FileTree) (site : BackendImport) (target : Module) : Prop :=
  ∃ file source, tree.moduleFile? site.target project.extensions = some file ∧
    tree.read file = .ok source ∧ Module.parse file source = .ok target

theorem resolve_eq_ok (h : project.resolve tree site = .ok exposed) :
    ∃ target, project.Targets tree site target ∧
      target.exposed (some site.requested) = .ok exposed := by
  obtain ⟨file, source, target, hfile, hsource, htarget, hexposed⟩ := exposedAt_eq_ok_iff.1 h
  exact ⟨target, ⟨file, source, hfile, hsource, htarget⟩, hexposed⟩

/-- A target that is resolved offers all functions in the result. -/
theorem offers_of_resolve (h : project.resolve tree site = .ok exposed) :
    ∃ target, project.Targets tree site target ∧ ∀ name ∈ exposed, target.Offers name := by
  obtain ⟨target, htarget, hexposed⟩ := resolve_eq_ok h
  exact ⟨target, htarget, fun name hname => Module.offers_of_mem_exposed hexposed hname⟩

/-- **Exposure soundness.** The methods of a proxy are the imported names of an import of the
module, each where it stands first, and its target offers all of them. -/
theorem exposure_sound (h : project.plan tree m = .ok rewrites) (hr : r ∈ rewrites) :
    (∃ target, project.Targets tree r.site target ∧
      ∀ name ∈ r.proxy.methods, target.Offers name) ∧
    r.proxy.methods.Nodup ∧
    r.proxy.methods = (r.site.bindings.map Binding.imported).eraseDups ∧
    r.proxy.bindings = r.site.bindings ∧
    (∀ binding ∈ r.proxy.bindings, binding.imported ∈ r.proxy.methods) ∧
    ∃ s decl, m.statements[r.site.position]? = some s ∧ s.kind = .importing decl ∧
      BackendImport.Parted decl.specifiers r.site.bindings r.site.typeBindings := by
  obtain ⟨⟨s, hs, hsite⟩, hrewrite⟩ := rewriteOf_of_mem_plan h hr
  obtain ⟨exposed, hexposed, hproxy⟩ := rewriteOf_eq_ok_iff.1 hrewrite
  obtain ⟨target, htarget, hoffers⟩ := offers_of_resolve hexposed
  obtain ⟨hrequested, hproxy⟩ := BackendImport.rewrite_eq_ok_iff.1 hproxy
  have hmethods : r.proxy.methods = r.site.requested := by rw [hproxy]
  have hbindings : r.proxy.bindings = r.site.bindings := by rw [hproxy]
  obtain ⟨decl, hkind, hparted⟩ := BackendImport.parted_of_ofStatement? hsite
  refine ⟨⟨target, htarget, fun name hname => ?_⟩, ?_, ?_, hbindings, fun binding hbinding => ?_,
    s, decl, hs, hkind, hparted⟩
  · rw [hmethods] at hname
    exact hoffers name (hrequested name hname)
  · rw [hmethods]
    exact nodup_distinct _
  · rw [hmethods, BackendImport.requested_eq_eraseDups]
  · rw [hbindings] at hbinding
    rw [hmethods]
    exact BackendImport.mem_requested.2 ⟨binding, hbinding, rfl⟩

theorem clockRewrite_exposure :
    ∃ target, clockProject.Targets clockTree clockRewrite.site target ∧ target.Offers "now" := by
  obtain ⟨⟨target, htarget, hoffers⟩, -⟩ := exposure_sound plan_clockModule List.mem_cons_self
  exact ⟨target, htarget, hoffers "now" List.mem_cons_self⟩

end RemoteImports.Project
