import RemoteImports.Proofs.Module.Relocation

/-!
# Relocated projects

What a rewriting emits does not depend on where the project lives (`transform_relocated`). For two
roots below which two trees agree, as long as no path leaves the root, every step of a
transformation has a counterpart: imports from the backend stand at the same places and lead to
corresponding targets (`forall₂_backendImports`), the files behind them expose the same functions
(`relocated_exposedAt`), and so the same import is the first that fails, in the same way, or the
same proxies are put in place.
-/

namespace RemoteImports

open FilePath

/-! ## Imports one by one -/

namespace Project

/-- The import at a position is the first of a module that fails. -/
def FailsFirst (project : Project) (tree : FileTree) (m : Module) (position : Nat)
    (failure : Failure) : Prop :=
  ∃ site, project.Accepts m position site ∧ project.FailsWith tree site failure ∧
    ∀ before < position, ∀ earlier, project.Accepts m before earlier → project.Passes tree earlier

section Imports

variable {place place' : Location} {tree tree' : FileTree} {p p' : FilePath}
  {project project' : Project} {site site' : BackendImport} {sites sites' : List BackendImport}
  (h : ∀ s ∈ place, IsEntryName s) (h' : ∀ s ∈ place', IsEntryName s)
  (hsame : tree.SameBelow tree' place.path place'.path)

section Exposed

variable {extensions : List String}
  (hextensions : ∀ extension ∈ extensions, '/' ∉ extension.toList)
include h h' hsame hextensions

/-- **The files behind corresponding targets expose the same functions**, or fail in the same
way. -/
theorem relocated_exposedAt (hp : Corresponds place.path place'.path p p') (specifier : String)
    (requested : Option (List String)) :
    SameOutcome (Failure.Relocated place.path place'.path) Eq
      (exposedAt tree p specifier requested extensions)
      (exposedAt tree' p' specifier requested extensions) := by
  have hmodule := hsame.rel_moduleFile? h h' hextensions hp
  unfold exposedAt
  generalize hfile : tree.moduleFile? p extensions = file at hmodule
  generalize tree'.moduleFile? p' extensions = file' at hmodule
  cases hmodule with
  | none => exact .error (.missing hp specifier extensions)
  | @some file file' hcorresponds =>
    have hread := hsame.read_eq hcorresponds (FileTree.isFile_of_moduleFile? hfile)
    simp only [hread]
    cases tree'.read file' with
    | error fault => exact .error (.unreadable hp specifier fault.message)
    | ok source =>
      have hlast := hcorresponds.getLast?_components h h'
      refine ((Module.sameOutcome_parse hlast source).imp ?_ fun _ _ hm => hm).bind ?_
      · rintro e e' ⟨fault, rfl, rfl⟩
        exact .parse hcorresponds fault
      · rintro m m' ⟨rfl, rfl⟩
        refine (Module.sameOutcome_exposedAmong _ _ _ _ _).imp ?_ fun _ _ hnames => hnames
        rintro e e' ⟨name, rfl, rfl⟩
        exact .exposedNotExported hcorresponds name

/-- **Imports that differ in their targets are rewritten alike**, or fail in the same way. -/
theorem relocated_rewriteOf (hproject : project.extensions = extensions)
    (hproject' : project'.extensions = extensions)
    (hsite : site.Relocated place.path place'.path site') :
    SameOutcome (Failure.Relocated place.path place'.path)
      (Rewrite.Relocated place.path place'.path)
      (project.rewriteOf tree site) (project'.rewriteOf tree' site') := by
  obtain ⟨target', rfl⟩ : ∃ target', site' = { site with target := target' } :=
    ⟨_, hsite.eq_withTarget⟩
  rw [rewriteOf, rewriteOf, hproject, hproject']
  refine (relocated_exposedAt h h' hsame hextensions hsite.target _ _).bind ?_
  rintro exposed _ rfl
  have hrequested : ({ site with target := target' } : BackendImport).requested = site.requested :=
    rfl
  simp only [BackendImport.rewrite, hrequested]
  split
  · exact .ok ⟨hsite, rfl⟩
  · exact .error (.missingExposure _ _)

theorem relocated_rewritesOf (hproject : project.extensions = extensions)
    (hproject' : project'.extensions = extensions)
    (hsites : List.Forall₂ (BackendImport.Relocated place.path place'.path) sites sites') :
    SameOutcome (Failure.Relocated place.path place'.path)
      (List.Forall₂ (Rewrite.Relocated place.path place'.path))
      (project.rewritesOf tree sites) (project'.rewritesOf tree' sites') := by
  induction hsites with
  | nil => exact .ok .nil
  | cons hsite _ ih =>
    exact (relocated_rewriteOf h h' hsame hextensions hproject hproject' hsite).bind fun _ _ hr =>
      ih.bind fun _ _ hrs => .ok (.cons hr hrs)

/-- Imports that differ in their targets pass alike. -/
theorem relocated_passes_iff (hproject : project.extensions = extensions)
    (hproject' : project'.extensions = extensions)
    (hsite : site.Relocated place.path place'.path site') :
    project.Passes tree site ↔ project'.Passes tree' site' := by
  rw [passes_iff, passes_iff]
  exact (relocated_rewriteOf h h' hsame hextensions hproject hproject' hsite).exists_ok_iff

/-- **The same import is the first that fails**, and it fails in the same way. -/
theorem relocated_failsFirst {m m' : Module} {position : Nat} {failure : Failure}
    (hproject : project.extensions = extensions) (hproject' : project'.extensions = extensions)
    (hsites : List.Forall₂ (BackendImport.Relocated place.path place'.path)
      (project.backendImports m) (project'.backendImports m'))
    (hfirst : project.FailsFirst tree m position failure) :
    ∃ failure', project'.FailsFirst tree' m' position failure' ∧
      failure.Relocated place.path place'.path failure' := by
  have hposition : ∀ site site' : BackendImport, site.Relocated place.path place'.path site' →
      site'.position = site.position := fun site site' hsite => by rw [hsite.eq_withTarget]
  obtain ⟨site, haccepts, hfails, hbefore⟩ := hfirst
  obtain ⟨hmem, rfl⟩ := accepts_iff_mem.1 haccepts
  obtain ⟨site', hmem', hsite⟩ := exists_mem_of_forall₂ hsites hmem
  have houtcome := relocated_rewriteOf h h' hsame hextensions hproject hproject' hsite
  rw [rewriteOf_eq_error_iff.2 hfails] at houtcome
  generalize hrewrite : project'.rewriteOf tree' site' = result at houtcome
  cases houtcome with
  | @error _ failure' hfailure =>
    refine ⟨failure', ⟨site', ?_, rewriteOf_eq_error_iff.1 hrewrite, ?_⟩, hfailure⟩
    · exact accepts_iff_mem.2 ⟨hmem', hposition _ _ hsite⟩
    · intro before hlt earlier' hearlier'
      obtain ⟨hmem', rfl⟩ := accepts_iff_mem.1 hearlier'
      obtain ⟨earlier, hmem, hearlier⟩ := exists_mem_of_forall₂ hsites.flip hmem'
      rw [hposition _ _ hearlier] at hlt
      have hpasses := hbefore _ hlt earlier (accepts_iff_mem.2 ⟨hmem, rfl⟩)
      exact (relocated_passes_iff h h' hsame hextensions hproject hproject' hearlier).1 hpasses

/-- **Plans at two roots** succeed alike, or fail at the same import. -/
theorem relocated_plan {m m' : Module} (hproject : project.extensions = extensions)
    (hproject' : project'.extensions = extensions)
    (hsites : List.Forall₂ (BackendImport.Relocated place.path place'.path)
      (project.backendImports m) (project'.backendImports m')) :
    SameOutcome
      (fun failure failure' => failure.Relocated place.path place'.path failure' ∧
        ∃ position, project.FailsFirst tree m position failure ∧
          project'.FailsFirst tree' m' position failure')
      (List.Forall₂ (Rewrite.Relocated place.path place'.path))
      (project.plan tree m) (project'.plan tree' m') := by
  cases hplan : project.plan tree m with
  | error failure =>
    obtain ⟨position, hfirst⟩ := plan_eq_error_iff.1 hplan
    obtain ⟨failure', hfirst', hfailure⟩ :=
      relocated_failsFirst h h' hsame hextensions hproject hproject' hsites hfirst
    rw [plan_eq_error_iff.2 ⟨position, hfirst'⟩]
    exact .error ⟨hfailure, position, hfirst, hfirst'⟩
  | ok rewrites =>
    have houtcome := relocated_rewritesOf h h' hsame hextensions hproject hproject' hsites
    rw [show project.rewritesOf tree (project.backendImports m) = _ from hplan] at houtcome
    rw [plan]
    generalize project'.rewritesOf tree' (project'.backendImports m') = result at houtcome ⊢
    cases houtcome with
    | ok hrewrites => exact .ok hrewrites

end Exposed

/-! ## The imports of a module -/

section Sites

variable {names backend : Location} {position : Nat} {s : Statement} {statements : List Statement}
include h h'

/-- **A statement is an import from the backend below one root if it is one below the other.** -/
theorem rel_ofStatement? (hnames : IsWayDown names) (hbackend : ∀ s ∈ backend, IsEntryName s)
    (hs : ∀ decl, s.kind = .importing decl → decl.source.toList.head? = some '.' →
      (walkInside names.dropLast (components ⟨decl.source⟩)).isSome) :
    Option.Rel (BackendImport.Relocated place.path place'.path)
      (BackendImport.ofStatement? (Location.path (place ++ names))
        (Location.path (place ++ backend)) position s)
      (BackendImport.ofStatement? (Location.path (place' ++ names))
        (Location.path (place' ++ backend)) position s) := by
  unfold BackendImport.ofStatement?
  cases hkind : s.kind with
  | importing decl =>
    dsimp only
    split
    · rename_i heligible
      have hdot := (BackendImport.isEligible_iff.1 heligible).1
      obtain ⟨inside, hinside⟩ : ∃ inside : Location,
          walkInside names.dropLast (components ⟨decl.source⟩) = some inside :=
        Option.isSome_iff_exists.1 (hs decl hkind hdot)
      have hentry : ∀ s ∈ inside, IsEntryName s :=
        isEntryName_of_walkInside hinside
          (fun s hs => hnames.isEntryName s (List.dropLast_subset _ hs))
          fun s hs => isEntryName_of_mem_components hs
      have happend : ∀ {place more : Location}, (∀ s ∈ place, IsEntryName s) →
          (∀ s ∈ more, IsEntryName s) → ∀ s ∈ place ++ more, IsEntryName s :=
        fun h hmore => List.forall_mem_append.2 ⟨h, hmore⟩
      rw [Location.resolveFrom_path hnames.ne_nil (happend h hnames.isEntryName) hinside,
        Location.resolveFrom_path hnames.ne_nil (happend h' hnames.isEntryName) hinside,
        Location.relativeTo_path_append (happend h hbackend) (happend h hentry),
        Location.relativeTo_path_append (happend h' hbackend) (happend h' hentry)]
      cases hfilename : backend.path.relativeTo inside.path with
      | none => exact .none
      | some filename =>
        obtain ⟨rest, hrest, hcomponents, -⟩ := relativeTo_eq_some_iff.1 hfilename
        have hne : inside ≠ [] := by
          rintro rfl
          rw [Location.components_path hbackend] at hcomponents
          exact hrest (List.append_eq_nil_iff.1 (List.cons.inj hcomponents).2.symm).2
        refine .some ⟨(corresponds_path_iff h h').2 ⟨inside, ⟨hne, hentry⟩, rfl, rfl⟩, rfl⟩
    · exact .none
  | _ => exact .none

theorem forall₂_among (hnames : IsWayDown names) (hbackend : ∀ s ∈ backend, IsEntryName s)
    (hs : ∀ s ∈ statements, ∀ decl, s.kind = .importing decl →
      decl.source.toList.head? = some '.' →
      (walkInside names.dropLast (components ⟨decl.source⟩)).isSome) :
    List.Forall₂ (BackendImport.Relocated place.path place'.path)
      (BackendImport.among (Location.path (place ++ names)) (Location.path (place ++ backend))
        position statements)
      (BackendImport.among (Location.path (place' ++ names)) (Location.path (place' ++ backend))
        position statements) := by
  rw [BackendImport.among_eq_filterMap, BackendImport.among_eq_filterMap]
  refine List.rel_filterMap (R := fun a b => a = b ∧ a.1 ∈ statements) ?_ ?_
  · rintro ⟨s, i⟩ _ ⟨rfl, hmem⟩
    exact rel_ofStatement? h h' hnames hbackend (hs s hmem)
  · exact List.forall₂_same.2 fun a ha => ⟨rfl, List.fst_mem_of_mem_zipIdx ha⟩

end Sites

end Imports

/-! ## Transformations -/

variable {R R' backend q : FilePath} {extensions : List String} {tree tree' : FileTree}
  {source : String} {names place inside : Location}

theorem ofRoot_path (h : ∀ s ∈ place, IsEntryName s)
    (hbackend : walkInside [] backend.components = some inside) (extensions : List String) :
    ofRoot place.path backend extensions =
      ⟨place.path, Location.path (place ++ inside), extensions⟩ := by
  rw [ofRoot, Location.normalize_path h, Location.normalize_join_path_of_nil hbackend h]

theorem absolute_join_path (project : Project) (h : ∀ s ∈ place, IsEntryName s)
    (hq : walkInside [] q.components = some inside) :
    project.absolute (place.path.join q) = Location.path (place ++ inside) := by
  rw [absolute, if_pos (isAbsolute_join place.isAbsolute_path q),
    Location.normalize_join_path_of_nil hq h]

/-- A file of the project has the same name wherever the project is. -/
theorem getLast?_components_join (place place' : Location)
    (hq : walkInside [] q.components = some names) (hne : names ≠ []) :
    (place.path.join q).components.getLast? = (place'.path.join q).components.getLast? := by
  have hsteps : q.components.filter (· ≠ .here) ≠ [] := by
    intro hnil
    have hnormal := normalComponents_walkInside [] hq
    rw [hnil, List.append_nil] at hnormal
    obtain hnone : names.map Component.name = [] := (List.cons.inj hnormal).2.symm
    exact hne (List.map_eq_nil_iff.1 hnone)
  have hempty : ∀ place : Location, place.path.bytes ≠ [] := fun _ => List.cons_ne_nil _ _
  have hrelative := not_isAbsolute_of_walkInside hq
  rw [components_join (hempty place) hrelative, components_join (hempty place') hrelative,
    List.getLast?_append_of_ne_nil _ hsteps, List.getLast?_append_of_ne_nil _ hsteps]

/-- The imports of a module of the project below two roots. -/
theorem forall₂_backendImports {place' : Location} {m : Module} (h : ∀ s ∈ place, IsEntryName s)
    (h' : ∀ s ∈ place', IsEntryName s) (hbackend : walkInside [] backend.components = some inside)
    (extensions : List String) (hq : walkInside [] q.components = some names) (hne : names ≠ [])
    (hm : m.path = place.path.join q)
    (hs : ∀ s ∈ m.statements, ∀ decl, s.kind = .importing decl →
      decl.source.toList.head? = some '.' →
      (walkInside names.dropLast (components ⟨decl.source⟩)).isSome) :
    List.Forall₂ (BackendImport.Relocated place.path place'.path)
      ((ofRoot place.path backend extensions).backendImports m)
      ((ofRoot place'.path backend extensions).backendImports
        { m with path := place'.path.join q }) := by
  have hentry : ∀ {p : FilePath} {inside : Location},
      walkInside [] p.components = some inside → ∀ s ∈ inside, IsEntryName s := fun h =>
    isEntryName_of_walkInside h nofun fun s hs => isEntryName_of_mem_components hs
  rw [backendImports, backendImports, hm, absolute_join_path _ h hq, absolute_join_path _ h' hq,
    ofRoot_path h hbackend, ofRoot_path h' hbackend]
  exact forall₂_among h h' ⟨hne, hentry hq⟩ (hentry hbackend) hs

/-- Two transformations fail alike: the file itself breaks the grammar, or the same import is the
first that fails, in the same way. -/
inductive FailsAlike (project project' : Project) (tree tree' : FileTree) (p p' : FilePath)
    (source : String) : Failure → Failure → Prop
  | file {fault : SyntaxFault} (h : Module.parse p source = .error (.parse p fault))
      (h' : Module.parse p' source = .error (.parse p' fault)) :
      FailsAlike project project' tree tree' p p' source (.parse p fault) (.parse p' fault)
  | site {m m' : Module} {position : Nat} {failure failure' : Failure}
      (hm : Module.parse p source = .ok m) (hm' : Module.parse p' source = .ok m')
      (h : project.FailsFirst tree m position failure)
      (h' : project'.FailsFirst tree' m' position failure')
      (hfailure : failure.Relocated project.root project'.root failure') :
      FailsAlike project project' tree tree' p p' source failure failure'

/-- **What is emitted does not depend on where the project lives.** Two normal absolute roots are
given, below which the trees agree; the backend directory, the path of the file and the specifiers
that start with a dot do not leave the root. Then both transformations succeed with the same code,
or both fail for the same reason. -/
theorem transform_relocated
    (hR : R.isAbsolute) (hnormal : R.normalize = R) (hR' : R'.isAbsolute)
    (hnormal' : R'.normalize = R') (hsame : tree.SameBelow tree' R R')
    (hbackend : (walkInside [] backend.components).isSome)
    (hextensions : ∀ extension ∈ extensions, '/' ∉ extension.toList)
    (hq : walkInside [] q.components = some names) (hne : names ≠ [])
    (hsource : ∀ m, Module.parse (R.join q) source = .ok m → ∀ s ∈ m.statements, ∀ decl,
      s.kind = .importing decl → decl.source.toList.head? = some '.' →
      (walkInside names.dropLast (components ⟨decl.source⟩)).isSome) :
    SameOutcome
      (FailsAlike (ofRoot R backend extensions) (ofRoot R' backend extensions) tree tree'
        (R.join q) (R'.join q) source)
      (Transformed.Relocated R R')
      ((ofRoot R backend extensions).transform tree (R.join q) source)
      ((ofRoot R' backend extensions).transform tree' (R'.join q) source) := by
  obtain ⟨place, h, rfl⟩ := Location.exists_path_of_normalize hR hnormal
  obtain ⟨place', h', rfl⟩ := Location.exists_path_of_normalize hR' hnormal'
  obtain ⟨inside, hinside⟩ := Option.isSome_iff_exists.1 hbackend
  have hmodules := Module.sameOutcome_parse (getLast?_components_join place place' hq hne) source
  generalize hm : Module.parse (place.path.join q) source = result at hmodules
  generalize hm' : Module.parse (place'.path.join q) source = result' at hmodules
  cases hmodules with
  | error hfault =>
    obtain ⟨fault, rfl, rfl⟩ := hfault
    rw [transform, transform, hm, hm']
    exact .error (.file hm hm')
  | @ok m _ hmodule =>
    obtain ⟨hpath, rfl⟩ := hmodule
    have hsites := forall₂_backendImports h h' hinside extensions hq hne hpath (hsource m hm)
    rw [transform_of_parse hm, transform_of_parse hm']
    refine ((relocated_plan h h' hsame hextensions rfl rfl hsites).imp ?_ fun _ _ h => h).map ?_
    · rintro failure failure' ⟨hfailure, position, hfirst, hfirst'⟩
      rw [← hnormal, ← hnormal'] at hfailure
      exact .site hm hm' hfirst hfirst' hfailure
    · intro rewrites rewrites' hrewrites
      refine ⟨?_, hrewrites⟩
      rw [Module.textAfter_relocated hrewrites]
      rfl

/-- The files of the clock's project at another root. -/
def movedTree : FileTree :=
  FileTree.empty.put ["home", "dev", "app", "backend", "clock.ts"]
    (.file (.text "// @expose\nexport function now() {}\n"))

theorem sameBelow_movedTree : clockTree.SameBelow movedTree ⟨"/app"⟩ ⟨"/home/dev/app"⟩ := by
  have hfile : ∀ place : Location, place ≠ [] → (∀ s ∈ place, IsFileName s) →
      (FileTree.empty.put place
        (.file (.text "// @expose\nexport function now() {}\n"))).IsProper :=
    fun place hne hplace => FileTree.isProper_empty.put (.file _) hne hplace
  have happ : clockTree.Reached ["app"] := .entry .top rfl rfl nofun (by decide)
  have hhome : movedTree.Reached ["home"] := .entry .top rfl rfl nofun (by decide)
  have hdev : movedTree.Reached ["home", "dev"] := .entry hhome rfl rfl nofun (by decide)
  have hmoved : movedTree.Reached ["home", "dev", "app"] := .entry hdev rfl rfl nofun (by decide)
  refine FileTree.sameBelow_of_at?_eq ?_ (hfile _ (by decide) (by decide))
    (hfile _ (by decide) (by decide)) happ hmoved rfl rfl
  refine .directory fun entry hentry => ?_
  obtain rfl := List.mem_singleton.1 hentry
  refine .directory fun entry hentry => ?_
  obtain rfl := List.mem_singleton.1 hentry
  exact .file _

/-- The text that calls the clock, transformed at the other root. -/
theorem code_movedTree :
    ∃ out, (ofRoot ⟨"/home/dev/app"⟩ ⟨"./src/../backend"⟩ ["ts"]).transform movedTree
        ⟨"/home/dev/app/src/main.ts"⟩ clockSource = .ok out ∧ out.code = clockCode := by
  have hparse : Module.parse ⟨"/app/src/main.ts"⟩ clockSource =
      .ok { clockModule with path := ⟨"/app/src/main.ts"⟩ } := by decide +kernel
  have hsource : ∀ m, Module.parse ⟨"/app/src/main.ts"⟩ clockSource = .ok m →
      ∀ s ∈ m.statements, ∀ decl, s.kind = .importing decl → decl.source.toList.head? = some '.' →
      (walkInside ["src"] (components ⟨decl.source⟩)).isSome := by
    intro m hm s hs decl hkind _
    obtain rfl := Except.ok.inj (hparse.symm.trans hm)
    rcases List.mem_cons.1 hs with rfl | hs
    · cases hkind
      decide +kernel
    · obtain rfl := List.mem_singleton.1 hs
      cases hkind
  have hplan : clockProject.plan clockTree { clockModule with path := ⟨"/app/src/main.ts"⟩ } =
      .ok [clockRewrite] := by decide +kernel
  have htransform : (ofRoot ⟨"/app"⟩ ⟨"./src/../backend"⟩ ["ts"]).transform clockTree
      (join ⟨"/app"⟩ ⟨"src/main.ts"⟩) clockSource = .ok ⟨clockCode, [clockRewrite]⟩ := by
    have hjoin : join ⟨"/app"⟩ ⟨"src/main.ts"⟩ = ⟨"/app/src/main.ts"⟩ := by decide
    have hcode : (Module.withTexts (Module.textAfter [clockRewrite])
        { clockModule with path := ⟨"/app/src/main.ts"⟩ }).source = clockCode := by decide +kernel
    rw [hjoin, transform_of_parse hparse]
    change (clockProject.plan _ _).map _ = _
    rw [hplan, Except.map, hcode]
  have hmoved := @transform_relocated ⟨"/app"⟩ ⟨"/home/dev/app"⟩ ⟨"./src/../backend"⟩
    ⟨"src/main.ts"⟩ ["ts"] clockTree movedTree clockSource ["src", "main.ts"] (by decide)
    (by decide +kernel) (by decide) (by decide +kernel) sameBelow_movedTree (by decide +kernel)
    (by decide) (by decide +kernel) (by decide) hsource
  rw [htransform] at hmoved
  obtain ⟨out, hout⟩ := hmoved.exists_ok_iff.1 ⟨_, rfl⟩
  refine ⟨out, hout, ?_⟩
  rw [hout] at hmoved
  cases hmoved with
  | ok hrelocated => exact hrelocated.code_eq

end Project

end RemoteImports
