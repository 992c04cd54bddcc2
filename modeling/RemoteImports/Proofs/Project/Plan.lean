import Mathlib.Data.List.Forall2
import RemoteImports.Project
import RemoteImports.Proofs.Import.Classification
import RemoteImports.Proofs.Import.Requests
import RemoteImports.Proofs.Module.Rewriting
import RemoteImports.Proofs.Outcome

/-!
# Plans

A plan takes up exactly the imports from the backend that a module has (`Accepts`), in their order,
and there is one if each of them passes (`Passes`); otherwise the first import that does not pass
decides with its failure (`FailsWith`). So the rewriting of a module in place is complete or leaves
the module alone (`plan_all_or_nothing`).
-/

namespace RemoteImports.Project

variable {project : Project} {tree : FileTree} {m : Module} {site : BackendImport}
  {sites : List BackendImport} {r : Rewrite} {rewrites : List Rewrite} {failure : Failure}

/-! ## What is asked of an import -/

/-- The statement at a position is an import from the backend. -/
def Accepts (project : Project) (m : Module) (position : Nat) (site : BackendImport) : Prop :=
  ∃ s, m.statements[position]? = some s ∧
    BackendImport.ofStatement? (project.absolute m.path) project.backendRoot position s = some site

/-- The functions that the target of an import exposes, as far as the import asks for them. -/
def resolve (project : Project) (tree : FileTree) (site : BackendImport) :
    Except Failure (List String) :=
  exposedAt tree site.target site.specifier (some site.requested) project.extensions

/-- The target of an import can be resolved, and it exposes what the import asks for. -/
def Passes (project : Project) (tree : FileTree) (site : BackendImport) : Prop :=
  ∃ exposed, project.resolve tree site = .ok exposed ∧ ∃ r, site.rewrite exposed = .ok r

/-- The target of an import cannot be resolved, or it does not expose what the import asks for. -/
def FailsWith (project : Project) (tree : FileTree) (site : BackendImport) (failure : Failure) :
    Prop :=
  project.resolve tree site = .error failure ∨
    ∃ exposed, project.resolve tree site = .ok exposed ∧ site.rewrite exposed = .error failure

theorem rewriteOf_eq_ok_iff :
    project.rewriteOf tree site = .ok r ↔
      ∃ exposed, project.resolve tree site = .ok exposed ∧ site.rewrite exposed = .ok r :=
  bind_eq_ok_iff

theorem rewriteOf_eq_error_iff :
    project.rewriteOf tree site = .error failure ↔ project.FailsWith tree site failure :=
  bind_eq_error_iff

theorem passes_iff : project.Passes tree site ↔ ∃ r, project.rewriteOf tree site = .ok r := by
  constructor
  · rintro ⟨exposed, hexposed, r, hr⟩
    exact ⟨r, rewriteOf_eq_ok_iff.2 ⟨exposed, hexposed, hr⟩⟩
  · rintro ⟨r, hr⟩
    obtain ⟨exposed, hexposed, hr⟩ := rewriteOf_eq_ok_iff.1 hr
    exact ⟨exposed, hexposed, r, hr⟩

theorem site_of_rewriteOf (h : project.rewriteOf tree site = .ok r) : r.site = site := by
  obtain ⟨exposed, -, hr⟩ := rewriteOf_eq_ok_iff.1 h
  exact BackendImport.site_of_rewrite hr

/-! ## A list of imports -/

/-- The rewrites of some imports correspond to them one by one. -/
theorem rewritesOf_eq_ok_iff :
    project.rewritesOf tree sites = .ok rewrites ↔
      List.Forall₂ (fun site r => project.rewriteOf tree site = .ok r) sites rewrites := by
  induction sites generalizing rewrites with
  | nil =>
    rw [List.forall₂_nil_left_iff]
    constructor
    · intro h
      cases h
      rfl
    · rintro rfl
      rfl
  | cons site rest ih =>
    rw [rewritesOf, bind_eq_ok_iff, List.forall₂_cons_left_iff]
    constructor
    · rintro ⟨r, hr, h⟩
      obtain ⟨rs, hrs, h⟩ := bind_eq_ok_iff.1 h
      cases h
      exact ⟨r, rs, hr, ih.1 hrs, rfl⟩
    · rintro ⟨r, rs, hr, hrs, rfl⟩
      exact ⟨r, hr, bind_eq_ok_iff.2 ⟨rs, ih.2 hrs, rfl⟩⟩

/-- The first import that does not pass decides. -/
theorem rewritesOf_eq_error_iff :
    project.rewritesOf tree sites = .error failure ↔
      ∃ before site after, sites = before ++ site :: after ∧
        (∀ earlier ∈ before, project.Passes tree earlier) ∧
        project.FailsWith tree site failure := by
  induction sites with
  | nil =>
    constructor
    · intro h
      cases h
    · rintro ⟨before, site, after, hsites, -⟩
      simp at hsites
  | cons first rest ih =>
    rw [rewritesOf, bind_eq_error_iff]
    constructor
    · rintro (hfirst | ⟨r, hr, h⟩)
      · exact ⟨[], first, rest, rfl, by simp, rewriteOf_eq_error_iff.1 hfirst⟩
      · -- the first import passes, so the failure is one of the others
        rcases bind_eq_error_iff.1 h with hrest | ⟨rs, -, hok⟩
        · obtain ⟨before, site, after, rfl, hbefore, hsite⟩ := ih.1 hrest
          refine ⟨first :: before, site, after, rfl, ?_, hsite⟩
          exact List.forall_mem_cons.2 ⟨passes_iff.2 ⟨r, hr⟩, hbefore⟩
        · cases hok
    · rintro ⟨before, site, after, hsites, hbefore, hsite⟩
      rcases List.cons_eq_append_iff.1 hsites with ⟨rfl, hcons⟩ | ⟨before', rfl, rfl⟩
      · cases hcons
        exact .inl (rewriteOf_eq_error_iff.2 hsite)
      · obtain ⟨hfirst, hbefore'⟩ := List.forall_mem_cons.1 hbefore
        obtain ⟨r, hr⟩ := passes_iff.1 hfirst
        have hrest := ih.2 ⟨before', site, after, rfl, hbefore', hsite⟩
        exact .inr ⟨r, hr, bind_eq_error_iff.2 (.inl hrest)⟩

/-- Either every import passes, or there is a first one that does not. -/
theorem exists_rewritesOf_iff :
    (∃ rewrites, project.rewritesOf tree sites = .ok rewrites) ↔
      ∀ site ∈ sites, project.Passes tree site := by
  induction sites with
  | nil => simp [rewritesOf]
  | cons site rest ih =>
    rw [List.forall_mem_cons, ← ih, passes_iff]
    simp only [rewritesOf, bind_eq_ok_iff]
    constructor
    · rintro ⟨-, r, hr, rs, hrs, -⟩
      exact ⟨⟨r, hr⟩, ⟨rs, hrs⟩⟩
    · rintro ⟨⟨r, hr⟩, ⟨rs, hrs⟩⟩
      exact ⟨r :: rs, r, hr, rs, hrs, rfl⟩

theorem map_site_of_rewritesOf (h : project.rewritesOf tree sites = .ok rewrites) :
    rewrites.map (·.site) = sites := by
  rw [rewritesOf_eq_ok_iff] at h
  induction h with
  | nil => rfl
  | cons hr _ ih => rw [List.map_cons, site_of_rewriteOf hr, ih]

/-! ## The imports of a module -/

theorem mem_backendImports_iff :
    site ∈ project.backendImports m ↔ project.Accepts m site.position site :=
  BackendImport.mem_among_iff

theorem position_of_accepts {position : Nat} (h : project.Accepts m position site) :
    site.position = position := by
  obtain ⟨s, -, hsite⟩ := h
  exact BackendImport.position_of_ofStatement? hsite

theorem accepts_iff_mem {position : Nat} :
    project.Accepts m position site ↔
      site ∈ project.backendImports m ∧ site.position = position := by
  constructor
  · intro h
    obtain rfl := position_of_accepts h
    exact ⟨mem_backendImports_iff.2 h, rfl⟩
  · rintro ⟨h, rfl⟩
    exact mem_backendImports_iff.1 h

theorem pairwise_position_backendImports (project : Project) (m : Module) :
    ((project.backendImports m).map (·.position)).Pairwise (· < ·) :=
  BackendImport.pairwise_position_among _ _ 0 m.statements

/-- What stands before an import of a module are the imports with a smaller position. -/
theorem mem_before_iff {before after : List BackendImport} {earlier : BackendImport}
    (h : project.backendImports m = before ++ site :: after) :
    earlier ∈ before ↔
      project.Accepts m earlier.position earlier ∧ earlier.position < site.position := by
  have hpairwise := project.pairwise_position_backendImports m
  rw [← mem_backendImports_iff, h]
  rw [h, List.map_append, List.map_cons, List.pairwise_append, List.pairwise_cons] at hpairwise
  obtain ⟨-, ⟨hafter, -⟩, hbefore⟩ := hpairwise
  constructor
  · intro hmem
    exact ⟨by simp [hmem], hbefore _ (List.mem_map_of_mem hmem) _ (by simp)⟩
  · rintro ⟨hmem, hlt⟩
    rcases List.mem_append.1 hmem with hmem | hmem
    · exact hmem
    · rcases List.mem_cons.1 hmem with rfl | hmem
      · exact absurd hlt (Nat.lt_irrefl _)
      · have := hafter _ (List.mem_map_of_mem hmem)
        omega

/-! ## Plans -/

theorem exists_plan_iff :
    (∃ rewrites, project.plan tree m = .ok rewrites) ↔
      ∀ position site, project.Accepts m position site → project.Passes tree site := by
  rw [plan, exists_rewritesOf_iff]
  constructor
  · intro h position site hsite
    exact h site (accepts_iff_mem.1 hsite).1
  · intro h site hsite
    exact h site.position site (mem_backendImports_iff.1 hsite)

theorem plan_eq_error_iff :
    project.plan tree m = .error failure ↔
      ∃ position site, project.Accepts m position site ∧ project.FailsWith tree site failure ∧
        ∀ before < position, ∀ earlier, project.Accepts m before earlier →
          project.Passes tree earlier := by
  rw [plan, rewritesOf_eq_error_iff]
  constructor
  · rintro ⟨before, site, after, hsites, hbefore, hsite⟩
    have hmem : site ∈ project.backendImports m := by simp [hsites]
    refine ⟨site.position, site, mem_backendImports_iff.1 hmem, hsite, ?_⟩
    intro position hlt earlier hearlier
    obtain rfl := position_of_accepts hearlier
    exact hbefore earlier ((mem_before_iff hsites).2 ⟨hearlier, hlt⟩)
  · rintro ⟨position, site, haccepts, hsite, hbefore⟩
    obtain ⟨hmem, rfl⟩ := accepts_iff_mem.1 haccepts
    obtain ⟨before, after, hsites⟩ := List.append_of_mem hmem
    refine ⟨before, site, after, hsites, ?_, hsite⟩
    intro earlier hearlier
    obtain ⟨hearlier, hlt⟩ := (mem_before_iff hsites).1 hearlier
    exact hbefore _ hlt earlier hearlier

theorem map_site_of_plan (h : project.plan tree m = .ok rewrites) :
    rewrites.map (·.site) = project.backendImports m :=
  map_site_of_rewritesOf h

/-- The rewrites of a plan come from the imports of the module, each with its own target. -/
theorem rewriteOf_of_mem_plan (h : project.plan tree m = .ok rewrites) (hr : r ∈ rewrites) :
    project.Accepts m r.site.position r.site ∧ project.rewriteOf tree r.site = .ok r := by
  have hsite : r.site ∈ project.backendImports m := by
    rw [← map_site_of_plan h]
    exact List.mem_map_of_mem hr
  refine ⟨mem_backendImports_iff.1 hsite, ?_⟩
  obtain ⟨i, hi, rfl⟩ := List.mem_iff_getElem.1 hr
  have hforall := List.forall₂_iff_get.1 (rewritesOf_eq_ok_iff.1 h)
  have hi' : i < (project.backendImports m).length := by rw [hforall.1]; exact hi
  have hrewrite := hforall.2 i hi' hi
  rw [← site_of_rewriteOf hrewrite] at hrewrite
  exact hrewrite

/-- The rewrites of a plan stand in the order of their positions, all inside the module. -/
theorem inOrder_of_plan (h : project.plan tree m = .ok rewrites) :
    Module.InOrder 0 m.statements.length rewrites := by
  have hsites := map_site_of_plan h
  refine ⟨?_, fun r _ => Nat.zero_le _, fun r hr => ?_⟩
  · have hpositions := project.pairwise_position_backendImports m
    rw [← hsites, List.map_map] at hpositions
    exact hpositions
  · obtain ⟨s, hs, -⟩ := (rewriteOf_of_mem_plan h hr).1
    exact (List.getElem?_eq_some_iff.1 hs).1

/-! ## Rewriting in place -/

/-- Work that is decided on the module as it is and then done to it. A decision that fails leaves
the module alone. -/
theorem run_decide_modify {α : Type} (decision : Module → Except Failure α)
    (edit : α → Module → Module) (m : Module) :
    (do
        let a ← liftExcept (decision (← get))
        modify (edit a)
        return a : InPlace α).run.run m =
      match decision m with
      | .ok a => (.ok a, edit a m)
      | .error failure => (.error failure, m) := by
  have hrun : (do
        let a ← liftExcept (decision (← get))
        modify (edit a)
        return a : InPlace α).run.run m =
      (do
        let a ← liftExcept (decision m)
        modify (edit a)
        return a : InPlace α).run.run m := rfl
  rw [hrun]
  cases decision m with
  | ok a => rfl
  | error failure => rfl

theorem run_rewriteInPlace (project : Project) (tree : FileTree) (m : Module) :
    (project.rewriteInPlace tree).run.run m =
      match project.plan tree m with
      | .ok rewrites => (.ok rewrites, (m.rewrite? rewrites).getD m)
      | .error failure => (.error failure, m) := by
  unfold rewriteInPlace
  rw [run_decide_modify (project.plan tree) fun rewrites m => (m.rewrite? rewrites).getD m]
  cases project.plan tree m with
  | ok rewrites => rfl
  | error failure => rfl

/-- **A plan is complete or there is none**, and a module is rewritten as a whole or not at all. A
plan is about the imports in their order; without one, the first import that does not pass decides,
and nothing is edited. -/
theorem plan_all_or_nothing (project : Project) (tree : FileTree) (m : Module) :
    ((∃ rewrites, project.plan tree m = .ok rewrites) ↔
      ∀ position site, project.Accepts m position site → project.Passes tree site) ∧
    (∀ rewrites, project.plan tree m = .ok rewrites →
      rewrites.map (·.site) = project.backendImports m ∧
      (rewrites.map (·.site.position)).Pairwise (· < ·) ∧
      (∀ r ∈ rewrites, r.site.position < m.statements.length) ∧
      (∀ position site, project.Accepts m position site ↔
        ∃ r ∈ rewrites, r.site = site ∧ site.position = position) ∧
      ∃ m', m.rewrite? rewrites = some m' ∧
        (project.rewriteInPlace tree).run.run m = (.ok rewrites, m')) ∧
    (∀ failure, project.plan tree m = .error failure ↔
      ∃ position site, project.Accepts m position site ∧ project.FailsWith tree site failure ∧
        ∀ before < position, ∀ earlier, project.Accepts m before earlier →
          project.Passes tree earlier) ∧
    ∀ failure, project.plan tree m = .error failure →
      (project.rewriteInPlace tree).run.run m = (.error failure, m) := by
  refine ⟨exists_plan_iff, fun rewrites h => ?_, fun failure => plan_eq_error_iff,
    fun failure h => ?_⟩
  · have hinOrder := inOrder_of_plan h
    have hsites := map_site_of_plan h
    refine ⟨hsites, hinOrder.pairwise, hinOrder.lt_stop, fun position site => ?_, _,
      Module.rewrite?_eq hinOrder, ?_⟩
    · rw [accepts_iff_mem, ← hsites, List.mem_map]
      constructor
      · rintro ⟨⟨r, hr, hsite⟩, hposition⟩
        exact ⟨r, hr, hsite, hposition⟩
      · rintro ⟨r, hr, hsite, hposition⟩
        exact ⟨⟨r, hr, hsite⟩, hposition⟩
    · simp only [run_rewriteInPlace, h, Module.rewrite?_eq hinOrder, Option.getD_some]
  · rw [run_rewriteInPlace, h]

/-! ## A small project -/

/-- A project at the top level directory `app`. -/
def clockProject : Project := .ofRoot ⟨"/app"⟩ ⟨"./src/../backend"⟩ ["ts"]

/-- The files of the project: one backend file, which exposes one function. -/
def clockTree : FileTree :=
  FileTree.empty.put ["app", "backend", "clock.ts"]
    (.file (.text "// @expose\nexport function now() {}\n"))

/-- A source text that calls the function by two names. -/
def clockSource : String :=
  "// Time\nimport { now, now as time, type Zone } from '../backend/clock';\n\ntime(now());\n"

/-- The module of the source text. -/
def clockModule : Module where
  path := ⟨"src/main.ts"⟩
  dialect := .typeScript
  statements :=
    [⟨"// Time\n", "import { now, now as time, type Zone } from '../backend/clock';", 2,
      .importing ⟨"../backend/clock", false, [.named ⟨"now", "now"⟩ false,
        .named ⟨"now", "time"⟩ false, .named ⟨"Zone", "Zone"⟩ true]⟩⟩,
    ⟨"\n\n", "time(now());", 4, .other⟩]
  trailing := "\n"

/-- What becomes of its import. -/
def clockRewrite : Rewrite where
  site :=
    { position := 0, line := 2, specifier := "../backend/clock"
      bindings := [⟨"now", "now"⟩, ⟨"now", "time"⟩], typeBindings := [⟨"Zone", "Zone"⟩]
      target := ⟨"/app/backend/clock"⟩, filename := "clock" }
  proxy := ⟨[⟨"now", "now"⟩, ⟨"now", "time"⟩], ["now"], "clock"⟩

theorem plan_clockModule : clockProject.plan clockTree clockModule = .ok [clockRewrite] := by
  decide +kernel

end RemoteImports.Project
