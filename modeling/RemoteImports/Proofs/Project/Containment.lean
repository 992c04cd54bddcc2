import RemoteImports.Proofs.FilePath.Relative
import RemoteImports.Proofs.Project.Plan

/-!
# Backend containment

Whatever the root, the backend directory, the path of the module and the specifiers look like, the
targets of a plan lie strictly below the backend root, and the file names that are sent to the
runtime show the names that lead down to them. So they lead back to the targets as far as these
names are texts (`backend_containment`), and only so far (`filename_leads_elsewhere`). The backend
root is a normal absolute path (`exists_names_backendRoot`), so this is the containment of
normalized targets below such a directory.
-/

namespace RemoteImports

open FilePath FilePath.Component
open OsString (dot)

/-- The target of a rewrite is a file below the backend root, and its file name shows the way
there. -/
structure Rewrite.IsInside (backendRoot : FilePath) (r : Rewrite) : Prop where
  isAbsolute : r.site.target.isAbsolute
  target_pieces : ∀ piece ∈ r.site.target.pieces, piece ≠ [dot] ∧ piece ≠ [dot, dot]
  isBelow : IsBelow backendRoot r.site.target
  filename_eq : r.proxy.filename = r.site.filename
  filename_ne : r.proxy.filename ≠ ""
  filename_pieces : ∀ piece ∈ r.proxy.filename.toList.splitOn '/',
    piece ≠ [] ∧ piece ≠ ['.'] ∧ piece ≠ ['.', '.']
  /-- The file name leads back to the target if the names that lead down to it are texts. -/
  filename_shows : ∃ names, LeadsDown backendRoot r.site.target names ∧
    r.proxy.filename = "/".intercalate (names.map OsString.text) ∧
    (backendRoot.join r.proxy.filename = r.site.target ↔ ∀ s ∈ names, s.IsUnicode)

namespace Project

variable {root backend : FilePath} {extensions : List String} {tree : FileTree} {m : Module}
  {rewrites : List Rewrite} {r : Rewrite}

/-- The backend root of a project with an absolute root. -/
theorem exists_names_backendRoot (hroot : root.isAbsolute) (backend : FilePath)
    (extensions : List String) :
    ∃ names : List OsString, (∀ s ∈ names, IsEntryName s) ∧
      (ofRoot root backend extensions).backendRoot = ofComponents (.root :: names.map name) := by
  obtain ⟨names, -, hnormal⟩ := normalize_of_isAbsolute hroot
  have habsolute : root.normalize.isAbsolute := by
    rw [hnormal]
    exact isAbsolute_ofComponents_root _
  exact normalize_of_isAbsolute (isAbsolute_join habsolute backend)

theorem filename_of_mem_plan (h : (ofRoot root backend extensions).plan tree m = .ok rewrites)
    (hr : r ∈ rewrites) :
    r.proxy.filename = r.site.filename ∧ ∃ p : FilePath, r.site.target = p.normalize ∧
      (ofRoot root backend extensions).backendRoot.relativeTo r.site.target =
        some r.site.filename := by
  obtain ⟨⟨s, -, hsite⟩, hrewrite⟩ := rewriteOf_of_mem_plan h hr
  obtain ⟨decl, -, -, -, -, -, -, -, htarget, hfilename⟩ := BackendImport.ofStatement?_eq_some hsite
  obtain ⟨exposed, -, hexposed⟩ := rewriteOf_eq_ok_iff.1 hrewrite
  obtain ⟨-, hrewritten⟩ := BackendImport.rewrite_eq_ok_iff.1 hexposed
  refine ⟨by rw [hrewritten], _, htarget, ?_⟩
  rw [htarget]
  exact hfilename

/-- The target of a rewrite is the backend root with more names after it, and its file name shows
these. -/
theorem exists_names_of_mem_plan (hroot : root.isAbsolute)
    (h : (ofRoot root backend extensions).plan tree m = .ok rewrites) (hr : r ∈ rewrites) :
    ∃ names more : List OsString, (∀ s ∈ names, IsEntryName s) ∧
      (ofRoot root backend extensions).backendRoot = ofComponents (.root :: names.map name) ∧
      more ≠ [] ∧ (∀ s ∈ more, IsEntryName s) ∧
      r.site.target = ofComponents (.root :: (names ++ more).map name) ∧
      r.proxy.filename = "/".intercalate (more.map OsString.text) := by
  obtain ⟨hproxy, p, htarget, hfilename⟩ := filename_of_mem_plan h hr
  obtain ⟨names, hnames, hbackend⟩ := exists_names_backendRoot hroot backend extensions
  rw [htarget, hbackend] at hfilename
  obtain ⟨more, hne, hmore, hnormal, hshown⟩ := relativeTo_normalize hfilename hnames
  exact ⟨names, more, hnames, hbackend, hne, hmore, htarget.trans hnormal, hproxy.trans hshown⟩

theorem isInside_of_mem_plan (hroot : root.isAbsolute)
    (h : (ofRoot root backend extensions).plan tree m = .ok rewrites) (hr : r ∈ rewrites) :
    r.IsInside (ofRoot root backend extensions).backendRoot := by
  obtain ⟨hproxy, -, -, hfilename⟩ := filename_of_mem_plan h hr
  obtain ⟨names, more, hnames, hbackend, hne, hmore, hnormal, hshown⟩ :=
    exists_names_of_mem_plan hroot h hr
  have hall : ∀ s ∈ names ++ more, IsEntryName s := List.forall_mem_append.2 ⟨hnames, hmore⟩
  have hpieces : ∀ piece ∈ r.proxy.filename.toList.splitOn '/',
      piece ≠ [] ∧ piece ≠ ['.'] ∧ piece ≠ ['.', '.'] := by
    rw [hshown]
    exact fun piece => mem_splitOn_intercalate_text hne hmore
  constructor
  case isAbsolute =>
    rw [hnormal]
    exact isAbsolute_ofComponents_root _
  case target_pieces =>
    intro piece hpiece
    rw [hnormal] at hpiece
    exact mem_pieces_ofComponents_root hall hpiece
  case isBelow =>
    rw [← isSome_relativeTo_iff, hfilename]
    rfl
  case filename_eq => exact hproxy
  case filename_ne =>
    intro hempty
    rw [hempty] at hpieces
    exact (hpieces [] (List.mem_singleton_self [])).1 rfl
  case filename_pieces => exact hpieces
  case filename_shows =>
    refine ⟨more, ⟨hne, hmore, ?_⟩, hshown, ?_⟩
    · rw [hnormal, hbackend, components_ofComponents_root (isInner_of_mem_names hall),
        components_ofComponents_root (isInner_of_mem_names hnames), List.map_append,
        List.cons_append]
    · rw [hshown, hbackend, hnormal]
      exact join_shown_iff hnames hne hmore

/-- **Backend containment.** The rewrites of a plan stay strictly below the backend root; and of the
statements of a module, exactly those are imports from the backend that name values, by a specifier
that starts with a dot and leads strictly below the backend root. -/
theorem backend_containment (root backend : FilePath) (extensions : List String)
    (hroot : root.isAbsolute) (tree : FileTree) (m : Module) :
    (∀ rewrites, (ofRoot root backend extensions).plan tree m = .ok rewrites →
      ∀ r ∈ rewrites, r.IsInside (ofRoot root backend extensions).backendRoot) ∧
    ∀ position s, m.statements[position]? = some s →
      ((∃ site, (ofRoot root backend extensions).Accepts m position site) ↔
        ∃ decl, s.kind = .importing decl ∧ BackendImport.NamesValues decl ∧
          decl.source.toList.head? = some '.' ∧
          IsBelow (ofRoot root backend extensions).backendRoot
            (((ofRoot root backend extensions).absolute m.path).resolveFrom decl.source)) := by
  refine ⟨fun rewrites h r hr => isInside_of_mem_plan hroot h hr, fun position s hs => ?_⟩
  constructor
  · rintro ⟨site, s', hs', hsite⟩
    obtain rfl := Option.some.inj (hs.symm.trans hs')
    exact BackendImport.isSome_ofStatement?_iff.1 (Option.isSome_iff_exists.2 ⟨site, hsite⟩)
  · intro h
    have hsome : (BackendImport.ofStatement? ((ofRoot root backend extensions).absolute m.path)
        (ofRoot root backend extensions).backendRoot position s).isSome :=
      BackendImport.isSome_ofStatement?_iff.2 h
    obtain ⟨site, hsite⟩ := Option.isSome_iff_exists.1 hsome
    exact ⟨site, s, hs, hsite⟩

theorem clockRewrite_isInside :
    (⟨"/app"⟩ : FilePath).isAbsolute ∧ clockRewrite.IsInside ⟨"/app/backend"⟩ := by
  have hroot : (⟨"/app"⟩ : FilePath).isAbsolute := by decide
  have hbackend : clockProject.backendRoot = ⟨"/app/backend"⟩ := by decide +kernel
  refine ⟨hroot, ?_⟩
  rw [← hbackend]
  exact (backend_containment _ _ _ hroot clockTree clockModule).1 _ plan_clockModule _ (by simp)

/-! ## Names that are no texts -/

/-- A source text that imports from a file next to its own. -/
def besideSource : String := "import { now } from './clock';\n"

/-- A directory of the backend with a name that is no text. -/
def besideDirectory : Location := ["app", "backend", ⟨[0xFF]⟩]

/-- The module of the source text in this directory. -/
def besideModule : Module where
  path := (Location.path besideDirectory).child "main.ts"
  dialect := .typeScript
  statements :=
    [⟨"", "import { now } from './clock';", 1,
      .importing ⟨"./clock", false, [.named ⟨"now", "now"⟩ false]⟩⟩]
  trailing := "\n"

/-- What becomes of its import. -/
def besideRewrite : Rewrite where
  site :=
    { position := 0, line := 1, specifier := "./clock"
      bindings := [⟨"now", "now"⟩], typeBindings := []
      target := (Location.path besideDirectory).child "clock", filename := "\uFFFD/clock" }
  proxy := ⟨[⟨"now", "now"⟩], ["now"], "\uFFFD/clock"⟩

/-- **A file name that leads elsewhere**: it shows what stands in for a directory whose name is no
text. And an import that names the default export is no import from the backend, however it names
it. -/
theorem filename_leads_elsewhere :
    Module.parse besideModule.path besideSource = .ok besideModule ∧
      clockProject.plan
        (FileTree.empty.put (besideDirectory ++ ["clock.ts"])
          (.file (.text "// @expose\nexport function now() {}\n"))) besideModule =
        .ok [besideRewrite] ∧
      clockProject.backendRoot.join besideRewrite.proxy.filename ≠ besideRewrite.site.target ∧
      (Module.parse ⟨"/app/src/main.ts"⟩
          "import { default as D, now } from '../backend/clock';").map
        clockProject.backendImports = .ok [] := by
  decide +kernel

end Project

end RemoteImports
