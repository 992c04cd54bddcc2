import RemoteImports.Proofs.Command.Check
import RemoteImports.Proofs.Config.Root

/-!
# The root of a check

A check takes the root of its project from a flag, from a variable, or from the file of the project.
A flag stands for the canonical path of the root; a variable and a file give the root as it is
written (`check_root_source`). So all three agree on a root whose normal form is canonical, but not
on one that goes through a link (`check_root_through_link`): no canonical path lies below that one.
-/

namespace RemoteImports

variable {tree : FileTree} {env env' : Environment} {target : Option FilePath}
  {flags flags' : Overrides} {path : FilePath}

/-! ## What else depends on the root -/

theorem GlobalIgnore.rules_congr (henv : env.SameButRoot env') :
    rules tree env = rules tree env' := by
  simp only [rules, file?, settingsDirectory?, Config.home?, henv "XDG_CONFIG_HOME" (by decide),
    henv "HOME" (by decide)]

theorem FileTree.discover_congr (henv : env.SameButRoot env') (selection : FileSelection) :
    tree.discover env path selection = tree.discover env' path selection := by
  simp only [discover, walk, IgnoreScope.atStart, GlobalIgnore.rules_congr henv]

namespace Config

variable {c c' : Config}

/-- The project of a configuration depends on the normal form of the root only. -/
theorem SameButRoot.project_eq (h : SameButRoot c c')
    (hroot : c.root.normalize = c'.root.normalize) : c.project = c'.project := by
  rw [project, project, Project.ofRoot, Project.ofRoot, hroot, h.backend, h.extensions]

end Config

namespace Command

theorem filesToCheck_congr {c c' : Config} (henv : env.SameButRoot env')
    (h : Config.SameButRoot c c') (hproject : c.project = c'.project) :
    filesToCheck tree env c path = filesToCheck tree env' c' path := by
  simp only [filesToCheck, h.extensions, h.includes, h.excludes, hproject,
    FileTree.discover_congr henv]

/-- Two checks that differ in where their roots come from agree if the roots do. -/
theorem checkReport_congr {settled : Overrides} {root : Option FilePath}
    (henv : env.SameButRoot env') (hsettled : settledFlags tree flags = .ok settled)
    (hsettled' : settledFlags tree flags' = .ok { settled with root })
    (hroot : ∀ path c c', tree.canonical (target.getD here) = .ok path →
      Config.resolve tree env (configDirectory tree path) settled = .ok c →
      Config.resolve tree env' (configDirectory tree path) { settled with root } = .ok c' →
      startingPath tree c.root = startingPath tree c'.root ∧
        c.root.normalize = c'.root.normalize) :
    checkReport tree env target flags = checkReport tree env' target flags' := by
  unfold checkReport
  refine (SameOutcome.refl (r := Eq) (fun _ => rfl) (fun _ => rfl) _).bind_eq
    fun path _ hpath _ hsame => ?_
  subst hsame
  rw [hsettled, hsettled']
  refine ((Config.sameButRoot_resolve henv root).mapError Failure.config).bind_eq
    fun c c' hc hc' h => ?_
  obtain ⟨hstart, hnormal⟩ := hroot path c c' (mapError_eq_ok_iff.1 hpath)
    (mapError_eq_ok_iff.1 hc) (mapError_eq_ok_iff.1 hc')
  have hproject := h.project_eq hnormal
  rw [hstart, filesToCheck_congr henv h hproject, h.format, hproject]

section Sources

variable {R C : FilePath} {working : FilePath} {c : Config}

theorem settledFlags_of_canonical (flags : Overrides) (hR : tree.canonical R = .ok C) :
    settledFlags tree { flags with root := some R } = .ok { flags with root := some C } :=
  bind_eq_ok_iff.2 ⟨C, startingPath_eq_ok_iff.2 hR, rfl⟩

theorem root_of_flag
    (h : Config.resolve tree env working { flags with root := some C } = .ok c) : c.root = C := by
  obtain ⟨user, project, -, -, hroot⟩ := Config.root_resolve h
  exact hroot

theorem root_of_variable (hR : R.isAbsolute) (hunicode : R.IsUnicode)
    (h : Config.resolve tree (("EXPOSER_ROOT", R.toOsString) :: env) working
      { flags with root := none } = .ok c) : c.root = R := by
  obtain ⟨user, project, -, -, hroot⟩ := Config.root_resolve h
  obtain ⟨text, htext, rfl⟩ := FilePath.exists_mk_eq hunicode
  rw [Environment.text?_cons_self, htext, Option.map_some] at hroot
  exact hroot.trans (FilePath.join_of_isAbsolute working hR)

theorem root_of_file {file : FilePath} {s : FileSettings} {text : String}
    (htext : (⟨text⟩ : FilePath).isAbsolute)
    (hfile : Config.projectFile? tree working = some file)
    (hs : Config.readFile tree .project file = .ok s) (hsroot : s.root = some text)
    (henv : env.text? "EXPOSER_ROOT" = none)
    (h : Config.resolve tree env working { flags with root := none } = .ok c) :
    c.root = ⟨text⟩ := by
  obtain ⟨user, project, -, hproject, hroot⟩ := Config.root_resolve h
  obtain ⟨s', hs', hdecided⟩ := Config.root_withProjectFile hproject hfile
  obtain rfl : s = s' := Except.ok.inj (hs.symm.trans hs')
  rw [henv, hdecided, hsroot] at hroot
  exact hroot.trans (FilePath.join_of_isAbsolute _ htext)

/-- **Where the root of a check comes from.** A flag stands for the canonical path, the file of the
project and the variable for the path as it is written; all of them agree if the normal form of the
root is canonical. A variable that holds no text counts for nothing. -/
theorem check_root_source (htree : tree.IsProper) (habs : R.isAbsolute)
    (hR : tree.canonical R = .ok C) :
    (C.IsUnicode →
      checkReport tree env target { flags with root := some R } =
        checkReport tree (("EXPOSER_ROOT", C.toOsString) :: env) target
          { flags with root := none }) ∧
    (∀ path file s text, tree.canonical (target.getD here) = .ok path →
      Config.projectFile? tree (configDirectory tree path) = some file →
      Config.readFile tree .project file = .ok s → s.root = some text → R = ⟨text⟩ →
      env.text? "EXPOSER_ROOT" = none →
      checkReport tree env target { flags with root := none } =
        checkReport tree (("EXPOSER_ROOT", R.toOsString) :: env) target
          { flags with root := none }) ∧
    (R.IsUnicode → R.normalize = C →
      checkReport tree (("EXPOSER_ROOT", R.toOsString) :: env) target { flags with root := none } =
        checkReport tree env target { flags with root := some R }) ∧
    (¬ R.IsUnicode → env.text? "EXPOSER_ROOT" = none →
      checkReport tree (("EXPOSER_ROOT", R.toOsString) :: env) target { flags with root := none } =
        checkReport tree env target { flags with root := none }) := by
  have hflag := settledFlags_of_canonical flags hR
  have hnone : settledFlags tree { flags with root := none } =
      .ok { flags with root := none } := rfl
  have hC := FileTree.isAbsolute_of_canonical hR
  have henv := env.sameButRoot_cons R.toOsString
  refine ⟨fun hunicode => ?_, fun path file s text hpath hfile hs hsroot htext hunset => ?_,
    fun hunicode hnormal => ?_, fun hunicode hunset => ?_⟩
  · refine checkReport_congr (env.sameButRoot_cons C.toOsString) hflag hnone
      fun path c c' _ hc hc' => ?_
    rw [root_of_flag hc, root_of_variable hC hunicode hc']
    exact ⟨rfl, rfl⟩
  · refine checkReport_congr henv hnone hnone fun path' c c' hpath' hc hc' => ?_
    obtain rfl : path = path' := Except.ok.inj (hpath.symm.trans hpath')
    have hunicode : R.IsUnicode := ⟨text, congrArg FilePath.toOsString htext⟩
    rw [root_of_file (htext ▸ habs) hfile hs hsroot hunset hc, root_of_variable habs hunicode hc',
      htext]
    exact ⟨rfl, rfl⟩
  · refine (checkReport_congr henv hflag hnone fun path c c' _ hc hc' => ?_).symm
    have hself := FileTree.canonical_canonical htree habs hR
    rw [root_of_flag hc, root_of_variable habs hunicode hc', startingPath_eq_ok_iff.2 hself,
      startingPath_eq_ok_iff.2 hR, hnormal]
    exact ⟨rfl, FileTree.normalize_of_canonical htree habs hR⟩
  · have hvalue : env.text? "EXPOSER_ROOT" =
        Environment.text? (("EXPOSER_ROOT", R.toOsString) :: env) "EXPOSER_ROOT" := by
      rw [hunset, Environment.text?_cons_self, eq_comm, ← Option.not_isSome_iff_eq_none,
        ← OsString.isUnicode_iff_text?]
      exact hunicode
    refine (checkReport_congr henv hnone hnone fun path c c' _ hc hc' => ?_).symm
    rw [Config.root_resolve_congr henv hvalue hc hc']
    exact ⟨rfl, rfl⟩

end Sources

/-! ## A root in three ways -/

/-- The small project with a file in the directory of the caller that names the root. -/
def rootedTree : FileTree :=
  callerTree.put ["app", "src", ".exposer.toml"] (.file (.text "[project]\nroot = \"/app\"\n"))

theorem isProper_rootedTree : rootedTree.IsProper :=
  isProper_callerTree.put (.file _) (by decide) (by decide)

theorem check_rootedTree :
    checkReport rootedTree [] (some ⟨"/app/src"⟩) { root := none } =
      checkReport rootedTree [] (some ⟨"/app/src"⟩) { root := some ⟨"/app"⟩ } := by
  obtain ⟨-, hfile, hnormal, -⟩ := @check_root_source rootedTree [] (some ⟨"/app/src"⟩) {} ⟨"/app"⟩
    ⟨"/app"⟩ isProper_rootedTree (by decide) (by decide +kernel)
  exact (hfile ⟨"/app/src"⟩ ⟨"/app/src/.exposer.toml"⟩ { root := some "/app" } "/app"
    (by decide +kernel) (by decide +kernel) (by decide +kernel) rfl rfl rfl).trans
      (hnormal ⟨"/app", rfl⟩ (by decide +kernel))

/-! ## A root through a link -/

/-- A project whose backend exposes nothing, and a link to it. -/
def linkedTree : FileTree where
  top := .directory
    [("link", .link ⟨"/real"⟩),
      ("real", .directory
        [("backend", .directory [("api.js", .file (.text "export function a() {}\n"))]),
          ("src", .directory
            [("main.js", .file (.text "import { a } from '../backend/api';\na();\n"))])])]
  working := []

/-- The verdicts on the files of a run. -/
def statuses (tree : FileTree) (env : Environment) (target : Option FilePath) (flags : Overrides) :
    Except Failure (List FileStatus) :=
  (checkReport tree env target flags).map fun report => report.2.files.map (·.status)

/-- The variable `EXPOSER_ROOT` and the flag `--root` do not mean the same root: the one through a
link is no directory above the files that are walked. So the backend is checked as if it were none,
and the imports from it pass unchecked. -/
theorem check_root_through_link :
    statuses linkedTree [("EXPOSER_ROOT", "/link")] (some ⟨"/real/backend"⟩) {} =
        .ok [.unchanged] ∧
      statuses linkedTree [] (some ⟨"/real/backend"⟩) { root := some ⟨"/link"⟩ } =
        .error (.noFiles ⟨"/real/backend"⟩) ∧
      statuses linkedTree [("EXPOSER_ROOT", "/link")] (some ⟨"/real/src"⟩) {} =
        .ok [.unchanged] ∧
      statuses linkedTree [] (some ⟨"/real/src"⟩) { root := some ⟨"/link"⟩ } = .ok [.failed] := by
  refine ⟨?_, ?_, ?_, ?_⟩ <;> decide +kernel

end Command

end RemoteImports
