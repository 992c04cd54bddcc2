import Mathlib.Data.List.Find
import RemoteImports.Proofs.Project.Plan

/-!
# Locality

The rewriting of a module looks at few paths: for an import from the backend, at its target, the
target with an extension after it, and the index files under it (`FilePath.candidates`). Trees that
agree there give the same plan and the same module (`plan_local`). In particular the files that a
backend file imports do not count, and neither do those of the frontend.
-/

namespace RemoteImports

/-- The paths that are looked at for an import of a path. -/
def FilePath.candidates (target : FilePath) (extensions : List String) : List FilePath :=
  target :: (extensions.map target.withExtension ++ extensions.map target.indexFile)

namespace FileTree

variable {tree tree' : FileTree} {target file : FilePath} {extensions : List String}

/-- Two trees agree at a path: it leads to the same kind of entry in both, and it reads as the same
text or fails to with the same fault. -/
structure SameAt (tree tree' : FileTree) (p : FilePath) : Prop where
  isFile_eq : tree.isFile p = tree'.isFile p
  isDirectory_eq : tree.isDirectory p = tree'.isDirectory p
  read_eq : tree.read p = tree'.read p

instance decidableSameAt (tree tree' : FileTree) (p : FilePath) :
    Decidable (tree.SameAt tree' p) :=
  decidable_of_iff (tree.isFile p = tree'.isFile p ∧ tree.isDirectory p = tree'.isDirectory p ∧
      tree.read p = tree'.read p)
    ⟨fun h => ⟨h.1, h.2.1, h.2.2⟩, fun h => ⟨h.isFile_eq, h.isDirectory_eq, h.read_eq⟩⟩

theorem moduleFile?_congr (h : ∀ p ∈ target.candidates extensions, tree.SameAt tree' p) :
    tree.moduleFile? target extensions = tree'.moduleFile? target extensions := by
  obtain ⟨htarget, hothers⟩ := List.forall_mem_cons.1 h
  obtain ⟨hextended, hindex⟩ := List.forall_mem_append.1 hothers
  rw [moduleFile?, moduleFile?, htarget.isFile_eq, htarget.isDirectory_eq,
    List.find?_congr fun p hp => (hextended p hp).isFile_eq,
    List.find?_congr fun p hp => (hindex p hp).isFile_eq]

/-- The file that an import of a path means is one of its candidates. -/
theorem mem_candidates_of_moduleFile? (h : tree.moduleFile? target extensions = some file) :
    file ∈ target.candidates extensions := by
  unfold moduleFile? at h
  split at h
  · obtain rfl := Option.some.inj h
    exact List.mem_cons_self
  · refine List.mem_cons_of_mem _ (List.mem_append.2 ?_)
    split at h
    · rename_i hextended
      obtain rfl := Option.some.inj h
      exact .inl (List.mem_of_find?_eq_some hextended)
    · split at h
      · exact .inr (List.mem_of_find?_eq_some h)
      · cases h

end FileTree

namespace Project

variable {project : Project} {tree tree' : FileTree} {m : Module} {extensions : List String}

theorem exposedAt_congr {target : FilePath}
    (h : ∀ p ∈ target.candidates extensions, tree.SameAt tree' p) (specifier : String)
    (requested : Option (List String)) :
    exposedAt tree target specifier requested extensions =
      exposedAt tree' target specifier requested extensions := by
  unfold exposedAt
  rw [FileTree.moduleFile?_congr h]
  cases hfile : tree'.moduleFile? target extensions with
  | none => rfl
  | some file =>
    -- the file that is read is one that the trees agree on
    have hread := (h file (FileTree.mem_candidates_of_moduleFile? hfile)).read_eq
    simp only [hread]

/-- Two trees agree on all that is looked at for an import. -/
def SameFor (project : Project) (tree tree' : FileTree) (site : BackendImport) : Prop :=
  ∀ p ∈ site.target.candidates project.extensions, tree.SameAt tree' p

theorem rewriteOf_congr {site : BackendImport} (h : project.SameFor tree tree' site) :
    project.rewriteOf tree site = project.rewriteOf tree' site := by
  rw [rewriteOf, rewriteOf, exposedAt_congr h]

theorem rewritesOf_congr {sites : List BackendImport}
    (h : ∀ site ∈ sites, project.SameFor tree tree' site) :
    project.rewritesOf tree sites = project.rewritesOf tree' sites := by
  induction sites with
  | nil => rfl
  | cons site rest ih =>
    obtain ⟨hsite, hrest⟩ := List.forall_mem_cons.1 h
    rw [rewritesOf, rewritesOf, rewriteOf_congr hsite, ih hrest]

/-- **One hop.** Only the candidates of the imports from the backend count: where two trees agree on
them, a module has the same rewrites, or fails alike. -/
theorem plan_local
    (h : ∀ position site, project.Accepts m position site →
      ∀ p ∈ site.target.candidates project.extensions, tree.SameAt tree' p) :
    project.plan tree m = project.plan tree' m ∧
    (project.rewriteInPlace tree).run.run m = (project.rewriteInPlace tree').run.run m ∧
    project.apply tree m = project.apply tree' m := by
  have hplan : project.plan tree m = project.plan tree' m :=
    rewritesOf_congr fun site hsite => h _ site (mem_backendImports_iff.1 hsite)
  have hrun : (project.rewriteInPlace tree).run.run m =
      (project.rewriteInPlace tree').run.run m := by
    rw [run_rewriteInPlace, run_rewriteInPlace, hplan]
  exact ⟨hplan, hrun, by rw [apply, apply, hrun]⟩

/-- The files of the project with another backend file, which is broken. -/
def brokenTree : FileTree :=
  clockTree.put ["app", "backend", "zone.ts"] (.file (.text "export function ("))

/-- The broken file next to the clock does not keep the clock from being imported. -/
theorem plan_clockModule_brokenTree :
    clockProject.plan brokenTree clockModule = .ok [clockRewrite] := by
  have hsites : [clockRewrite.site] = clockProject.backendImports clockModule :=
    map_site_of_plan plan_clockModule
  have hsame : ∀ position site, clockProject.Accepts clockModule position site →
      ∀ p ∈ site.target.candidates clockProject.extensions,
        clockTree.SameAt brokenTree p := by
    intro position site hsite
    have hmem := (accepts_iff_mem.1 hsite).1
    rw [← hsites, List.mem_singleton] at hmem
    subst hmem
    decide +kernel
  rw [← (plan_local hsame).1, plan_clockModule]

end Project

end RemoteImports
