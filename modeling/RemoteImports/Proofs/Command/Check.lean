import RemoteImports.Command.Run
import RemoteImports.Proofs.Check
import RemoteImports.Proofs.Discovery
import RemoteImports.Proofs.FileTree.Canonical
import RemoteImports.Proofs.Report.Reading

/-!
# Runs of a check

A run of `check` that finds files (`Finds`) prints a report on them and says for every file what its
transformation would do (`check_agrees_with_transform`). Its files are the discovered ones outside
of the backend, in the strict order of paths; those that hold no text are counted. The run fails
exactly if a file does, or if it has to write a path that is no text into a document
(`check_fails_at_name`).
-/

namespace RemoteImports.Command

open FilePath FilePath.Component

variable {tree : FileTree} {env : Environment} {target : Option FilePath} {flags : Overrides}
  {path : FilePath} {config : Config} {dir : FilePath} {files : List FilePath}

/-- A check of a target comes to a configuration, the directory that its report is seen from, and a
list of files that is not empty: those discovered outside of the backend. -/
structure Finds (tree : FileTree) (env : Environment) (target : Option FilePath) (flags : Overrides)
    (path : FilePath) (config : Config) (dir : FilePath) (files : List FilePath) : Prop where
  path_eq : tree.canonical (target.getD here) = .ok path
  config_eq : ∃ settled, settledFlags tree flags = .ok settled ∧
    configFor tree env (configDirectory tree path) settled = .ok config
  dir_eq : startingPath tree config.root = .ok dir
  files_eq : ∃ selection, FileSelection.ofPatterns config.extensions config.includes
      config.excludes = .ok selection ∧
    files = (tree.discover env path selection).filter fun file =>
      !config.project.isBackendFile file
  files_ne : files ≠ []

/-! ## Canonical paths -/

theorem startingPath_eq_ok_iff {p q : FilePath} :
    startingPath tree p = .ok q ↔ tree.canonical p = .ok q :=
  mapError_eq_ok_iff

/-! ## The run -/

theorem filesToCheck_eq_ok_iff :
    filesToCheck tree env config path = .ok files ↔
      (∃ selection, FileSelection.ofPatterns config.extensions config.includes config.excludes =
          .ok selection ∧
        files = (tree.discover env path selection).filter fun file =>
          !config.project.isBackendFile file) ∧ files ≠ [] := by
  refine bind_eq_ok_iff.trans ?_
  constructor
  · rintro ⟨selection, hselection, hfiles⟩
    simp only at hfiles
    split at hfiles
    · cases hfiles
    · rename_i hne
      cases hfiles
      exact ⟨⟨selection, hselection, rfl⟩, hne⟩
  · rintro ⟨⟨selection, hselection, rfl⟩, hne⟩
    exact ⟨selection, hselection, if_neg hne⟩

/-- A run comes to a report exactly if it finds files. -/
theorem checkReport_eq_ok_iff {format : OutputFormat} {report : CheckReport} :
    checkReport tree env target flags = .ok (format, report) ↔
      ∃ path config dir files, Finds tree env target flags path config dir files ∧
        format = config.format ∧ report = .ofFiles config.project tree dir files := by
  constructor
  · intro h
    obtain ⟨path, hpath, h⟩ := bind_eq_ok_iff.1 h
    obtain ⟨settled, hsettled, h⟩ := bind_eq_ok_iff.1 h
    obtain ⟨config, hconfig, h⟩ := bind_eq_ok_iff.1 h
    obtain ⟨dir, hdir, h⟩ := bind_eq_ok_iff.1 h
    obtain ⟨files, hfiles, h⟩ := bind_eq_ok_iff.1 h
    cases h
    obtain ⟨hselected, hne⟩ := filesToCheck_eq_ok_iff.1 hfiles
    exact ⟨path, config, dir, files,
      ⟨mapError_eq_ok_iff.1 hpath, ⟨settled, hsettled, hconfig⟩, hdir, hselected, hne⟩, rfl, rfl⟩
  · rintro ⟨path, config, dir, files, h, rfl, rfl⟩
    obtain ⟨settled, hsettled, hconfig⟩ := h.config_eq
    refine bind_eq_ok_iff.2 ⟨path, mapError_eq_ok_iff.2 h.path_eq, ?_⟩
    refine bind_eq_ok_iff.2 ⟨settled, hsettled, ?_⟩
    refine bind_eq_ok_iff.2 ⟨config, hconfig, ?_⟩
    refine bind_eq_ok_iff.2 ⟨dir, h.dir_eq, ?_⟩
    exact bind_eq_ok_iff.2 ⟨files, filesToCheck_eq_ok_iff.2 ⟨h.files_eq, h.files_ne⟩, rfl⟩

/-- The files of a run are in the strict order of paths, outside of the backend, and absolute. -/
theorem Finds.files_spread (h : Finds tree env target flags path config dir files)
    (htree : tree.IsProper) :
    files.Pairwise (fun p q => p.before q) ∧
      ∀ file ∈ files, file.components.head? = some root := by
  obtain ⟨selection, -, hfiles⟩ := h.files_eq
  have hpath := head?_components_of_isAbsolute (FileTree.isAbsolute_of_canonical h.path_eq)
  rw [hfiles]
  refine ⟨(FileTree.pairwise_before_discover htree env path selection).sublist
    List.filter_sublist, fun file hfile => ?_⟩
  obtain ⟨steps, hsteps⟩ := FileTree.prefix_of_mem_discover htree (List.mem_filter.1 hfile).1
  rw [← hsteps, List.head?_append, hpath]
  rfl

theorem complete_printCheck_iff {format : OutputFormat} {report : CheckReport} :
    (printCheck format report).complete ↔ format = .json → report.HasUnicodePaths := by
  cases format with
  | json => exact CheckReport.complete_written_iff.trans ⟨fun h _ => h, fun h => h rfl⟩
  | text => exact iff_of_true rfl nofun

theorem printFailure?_printCheck (format : OutputFormat) (report : CheckReport) :
    printFailure? (printCheck format report) =
      if format = .json ∧ ¬ report.HasUnicodePaths then some (.access .pathNotText) else none := by
  have hcomplete := @complete_printCheck_iff format report
  rw [printFailure?]
  split_ifs <;> tauto

/-- **A check agrees with the transformation, and its report balances.** The files are apart and in
their order; those that hold text have one result each, and the others are counted. The run fails if
a file does. It also fails, where the document breaks off, if a path of the report is no text. -/
theorem check_agrees_with_transform (htree : tree.IsProper)
    (h : Finds tree env target flags path config dir files) :
    ∃ report : CheckReport,
      checkReport tree env target flags = .ok (config.format, report) ∧
      (check target flags).outcome tree env =
        ⟨(printCheck config.format report).text,
          if config.format = .json ∧ ¬ report.HasUnicodePaths then some (.access .pathNotText)
          else if report.filesFailed = 0 then none
          else some (.checkFailed report.filesFailed report.filesChecked), tree⟩ ∧
      ((printCheck config.format report).complete ↔
        config.format = .json → report.HasUnicodePaths) ∧
      files.Pairwise (fun p q => p.before q) ∧
      List.Forall₂ (fun file result => ∃ source, tree.read file = .ok source ∧
          result.path = dir.shownFrom file ∧
          result.Reports source (config.project.transform tree file source))
        (files.filter fun file => (tree.read file).isOk) report.files ∧
      (report.files.map (·.path)).Nodup ∧
      report.filesSkipped = files.countP (fun file => !(tree.read file).isOk) ∧
      report.Balanced := by
  obtain ⟨hordered, hroot⟩ := h.files_spread htree
  have hdir := head?_components_of_isAbsolute
    (FileTree.isAbsolute_of_canonical (startingPath_eq_ok_iff.1 h.dir_eq))
  have hreport : checkReport tree env target flags =
      .ok (config.format, .ofFiles config.project tree dir files) :=
    checkReport_eq_ok_iff.2 ⟨path, config, dir, files, h, rfl, rfl⟩
  refine ⟨.ofFiles config.project tree dir files, hreport, ?_, complete_printCheck_iff, hordered,
    ?_, ?_, ?_, ?_⟩
  · rw [outcome, hreport]
    dsimp only
    rw [printFailure?_printCheck, checkFailure?]
    split_ifs <;> rfl
  · refine (CheckReport.forall₂_resultsFor config.project tree dir files).imp ?_
    rintro file result ⟨source, hsource, rfl⟩
    exact ⟨source, hsource, Project.path_check _ _ _ _ _, Project.reports_check _ _ _ _ _⟩
  · exact CheckReport.nodup_path_resultsFor hdir hroot hordered
  · exact CheckReport.filesSkipped_ofFiles config.project tree dir files
  · exact CheckReport.balanced_ofResults _ _ _

/-! ## A small run -/

/-- The files of the small project: the one that calls the clock, and the backend. -/
def callerTree : FileTree :=
  Project.clockTree.put ["app", "src", "main.ts"] (.file (.text Project.clockSource))

theorem isProper_callerTree : callerTree.IsProper := by
  have hclock : Project.clockTree.IsProper :=
    FileTree.isProper_empty.put (.file _) (by decide) (by decide)
  exact hclock.put (.file _) (by decide) (by decide)

/-- A check of the calling directory, whose project is the one above it. -/
theorem finds_callerTree :
    Finds callerTree [] (some ⟨"/app/src"⟩) { root := some ⟨"/app"⟩ } ⟨"/app/src"⟩
      ((Config.builtIn ⟨"/app/src"⟩).withOverrides { root := some ⟨"/app"⟩ }) ⟨"/app"⟩
      [⟨"/app/src/main.ts"⟩] where
  path_eq := by decide +kernel
  config_eq := ⟨{ root := some ⟨"/app"⟩ }, by decide +kernel, by decide +kernel⟩
  dir_eq := by decide +kernel
  files_eq := ⟨⟨Dialect.defaultExtensions, [], []⟩, rfl, by decide +kernel⟩
  files_ne := by simp

theorem outcome_check_callerTree :
    ∃ report : CheckReport,
      (check (some ⟨"/app/src"⟩) { root := some ⟨"/app"⟩ }).outcome callerTree [] =
        ⟨report.toText,
          if report.filesFailed = 0 then none
          else some (.checkFailed report.filesFailed report.filesChecked), callerTree⟩ ∧
      report.Balanced := by
  obtain ⟨report, -, houtcome, -, -, -, -, -, hbalanced⟩ :=
    check_agrees_with_transform isProper_callerTree finds_callerTree
  refine ⟨report, houtcome.trans ?_, hbalanced⟩
  rw [if_neg fun h => nomatch h.1]
  rfl

/-! ## A name that is no text -/

/-- A file whose name ends in a byte of its own. -/
def accentTree : FileTree where
  top := .directory
    [("menu", .directory
      [(⟨[0x63, 0x61, 0x66, 0xE9, 0x2E, 0x6A, 0x73]⟩, .file (.text "run();\n"))])]
  working := []

/-- A check fails at a name that no document can hold though no file fails. As text its report shows
the files with rewrites or errors only, so this one is not in it. -/
theorem check_fails_at_name :
    (checkReport accentTree [] (some ⟨"/menu"⟩) { format := some .json }).map
        (fun report => (report.2.filesChecked, report.2.filesFailed)) = .ok (1, 0) ∧
      ((check (some ⟨"/menu"⟩) { format := some .json }).outcome accentTree []).failure =
        some (.access .pathNotText) ∧
      ((check (some ⟨"/menu"⟩) {}).outcome accentTree []).printed =
        "Expose Check Report\n===================\n\nRoot:       /menu\n" ++
          "Backend:    /menu/backend\nChecked:    1 files\nRewritten:  0 files (0 imports)\n" ++
          "Failed:     0 files\nSkipped:    0 files\n" := by
  refine ⟨?_, ?_, ?_⟩ <;> decide +kernel

end RemoteImports.Command
