import RemoteImports.Proofs.Command.Check
import RemoteImports.Proofs.Config.Part
import RemoteImports.Proofs.Discovery.Part

/-!
# Checking a part of a project

A check of a directory of a project is set up like a check of the whole project, except for the
directory where it looks for files (`setUp_part`). So both make the same results out of the same
files. They need not examine the same files, since the patterns are tried on paths from different
directories (`check_part_differs`); they do if every file is selected alike from both, and so if the
patterns start with a star or a slash (`check_part`).
-/

namespace RemoteImports

open FilePath

namespace Command

/-! ## What a check works with -/

/-- What is settled before a check looks for files. -/
structure CheckSetup where
  /-- The path that is checked. -/
  path : FilePath
  config : Config
  /-- The directory that the report is seen from. -/
  dir : FilePath
  selection : FileSelection

namespace CheckSetup

/-- The same for another path. -/
def withPath (setup : CheckSetup) (path : FilePath) : CheckSetup := { setup with path }

/-- The files that are examined. -/
def files (setup : CheckSetup) (tree : FileTree) (env : Environment) : List FilePath :=
  (tree.discover env setup.path setup.selection).filter fun file =>
    !setup.config.project.isBackendFile file

/-- The files among them that lie in a directory. -/
def filesIn (setup : CheckSetup) (tree : FileTree) (env : Environment) (dir : FilePath) :
    List FilePath :=
  (setup.files tree env).filter fun file => (dir.below? file).isSome

/-- The report on the files, and the format it is printed in. -/
def report (setup : CheckSetup) (tree : FileTree) (env : Environment) :
    Except Failure (OutputFormat × CheckReport) :=
  if setup.files tree env = [] then .error (.noFiles setup.path)
  else .ok (setup.config.format,
    .ofFiles setup.config.project tree setup.dir (setup.files tree env))

end CheckSetup

/-- What is settled for a canonical path. -/
def setUpAt (tree : FileTree) (env : Environment) (path : FilePath) (flags : Overrides) :
    Except Failure CheckSetup := do
  let flags ← settledFlags tree flags
  let config ← configFor tree env (configDirectory tree path) flags
  let dir ← startingPath tree config.root
  let selection ← FileSelection.ofPatterns config.extensions config.includes config.excludes
  .ok ⟨path, config, dir, selection⟩

/-- What a check settles before it looks for files. -/
def setUp (tree : FileTree) (env : Environment) (target : Option FilePath) (flags : Overrides) :
    Except Failure CheckSetup := do
  let requested := target.getD here
  let path ← (tree.canonical requested).mapError fun _ => .noFiles requested
  setUpAt tree env path flags

variable {tree : FileTree} {env : Environment} {target part : Option FilePath} {flags : Overrides}
  {place down : Location}

/-- **A check reports on the files that its set-up leads to.** -/
theorem checkReport_eq (tree : FileTree) (env : Environment) (target : Option FilePath)
    (flags : Overrides) :
    checkReport tree env target flags =
      setUp tree env target flags >>= fun setup => setup.report tree env := by
  simp only [checkReport, setUp, setUpAt, filesToCheck, bind_assoc]
  refine bind_congr fun path => bind_congr fun settled => bind_congr fun config =>
    bind_congr fun dir => bind_congr fun selection => ?_
  change _ = CheckSetup.report ⟨path, config, dir, selection⟩ tree env
  unfold CheckSetup.report CheckSetup.files
  split
  · rfl
  · rfl

theorem setUp_of_canonical {path : FilePath} (h : tree.canonical (target.getD here) = .ok path) :
    setUp tree env target flags = setUpAt tree env path flags := by
  rw [setUp, h]
  rfl

/-! ## Parts of a project -/

/-- A directory of a project that has a file, by the names that lead down to it: a walk enters it,
and neither it nor a directory on the way down has a file for a project of its own. -/
structure IsPart (tree : FileTree) (env : Environment) (place down : Location) : Prop
    extends tree.IsEntered env place down where
  holdsFile : tree.HoldsProjectFile place.path
  holdsNone : tree.HoldsNoneOnWay place down

theorem configDirectory_path (htree : tree.IsProper) (hplace : tree.Reached place)
    (hdirectory : tree.holdsDirectory place) : configDirectory tree place.path = place.path := by
  obtain ⟨entries, hat⟩ := FileTree.holdsDirectory_iff.1 hdirectory
  have hisDirectory : tree.isDirectory place.path := by
    rw [FileTree.isDirectory, FileTree.entry?, FileTree.locate, hplace.reach_path htree]
    simp only [hat]
  exact if_pos hisDirectory

/-- Flags that give no canonical root give none. -/
theorem root_of_settledFlags {settled : Overrides} (h : settledFlags tree flags = .ok settled)
    (hroot : settled.root = none) : flags.root = none := by
  unfold settledFlags at h
  split at h
  · assumption
  · obtain ⟨root, -, h⟩ := bind_eq_ok_iff.1 h
    cases h
    cases hroot

/-- **A check of a part is set up like a check of the whole.** -/
theorem setUp_part (htree : tree.IsProper) (hpart : IsPart tree env place down)
    (henv : flags.root = none →
      ∀ root, env.text? "EXPOSER_ROOT" = some root → isAbsolute ⟨root⟩)
    (hwhole : tree.canonical (target.getD here) = .ok place.path)
    (hdown : tree.canonical (part.getD here) = .ok (Location.path (place ++ down))) :
    setUp tree env part flags =
      (setUp tree env target flags).map (·.withPath (Location.path (place ++ down))) := by
  obtain ⟨hplace, hdirectory⟩ := hpart.reached.of_append hpart.holdsDirectory
  rw [setUp_of_canonical hwhole, setUp_of_canonical hdown, setUpAt, setUpAt,
    configDirectory_path htree hplace hdirectory,
    configDirectory_path htree hpart.reached hpart.holdsDirectory, bind_map]
  refine (SameOutcome.refl (r := Eq) (fun _ => rfl) (fun _ => rfl) _).bind_eq
    fun settled _ hsettled _ hsame => ?_
  subst hsame
  have hconfig : configFor tree env (Location.path (place ++ down)) settled =
      configFor tree env place.path settled := by
    rw [configFor, configFor, Config.resolve_part (hpart.isEntryName htree) hpart.holdsFile
      hpart.holdsNone fun hroot => henv (root_of_settledFlags hsettled hroot)]
  simp only [hconfig, bind_map]
  rfl

theorem of_setUp_eq_ok {setup : CheckSetup} (h : setUp tree env target flags = .ok setup) :
    tree.canonical (target.getD here) = .ok setup.path ∧
      FileSelection.ofPatterns setup.config.extensions setup.config.includes
        setup.config.excludes = .ok setup.selection := by
  obtain ⟨path, hpath, h⟩ := bind_eq_ok_iff.1 h
  obtain ⟨settled, -, h⟩ := bind_eq_ok_iff.1 h
  obtain ⟨config, -, h⟩ := bind_eq_ok_iff.1 h
  obtain ⟨dir, -, h⟩ := bind_eq_ok_iff.1 h
  obtain ⟨selection, hselection, h⟩ := bind_eq_ok_iff.1 h
  cases h
  exact ⟨mapError_eq_ok_iff.1 hpath, hselection⟩

/-- **Checking a part of a project** is checking the whole of it restricted to the part, exactly if
the patterns select alike what is found there; they do if all of them start with a star or a slash.
Both runs work with the same configuration, project and patterns, or fail alike, and have the same
results for the same files. -/
theorem check_part (htree : tree.IsProper) (hpart : IsPart tree env place down)
    (henv : flags.root = none →
      ∀ root, env.text? "EXPOSER_ROOT" = some root → isAbsolute ⟨root⟩)
    (hwhole : tree.canonical (target.getD here) = .ok place.path)
    (hdown : tree.canonical (part.getD here) = .ok (Location.path (place ++ down))) :
    setUp tree env part flags =
      (setUp tree env target flags).map (·.withPath (Location.path (place ++ down))) ∧
    ∀ setup setup', setUp tree env target flags = .ok setup →
      setup' = setup.withPath (Location.path (place ++ down)) →
      checkReport tree env target flags = setup.report tree env ∧
      checkReport tree env part flags = setup'.report tree env ∧
      (∀ file, file ∈ setup'.files tree env ↔
        ∃ names : Location, ⟨file, down ++ names⟩ ∈ tree.walk env place.path ∧
          setup.config.project.isBackendFile file = false ∧
          setup.selection.selects (.join names) file) ∧
      (setup'.files tree env = setup.filesIn tree env (Location.path (place ++ down)) ↔
        ∀ file (names : Location), ⟨file, down ++ names⟩ ∈ tree.walk env place.path →
          setup.config.project.isBackendFile file = false →
          setup.selection.selects (.join names) file =
            setup.selection.selects (.join (down ++ names)) file) ∧
      ((∀ pattern ∈ setup.config.includes ++ setup.config.excludes,
          FileSelection.StartsFreely pattern) →
        setup'.files tree env = setup.filesIn tree env (Location.path (place ++ down))) := by
  have hsetup := @setUp_part tree env target part flags place down htree hpart henv hwhole hdown
  refine ⟨hsetup, ?_⟩
  rintro setup _ h rfl
  obtain ⟨hpath, hselection⟩ := of_setUp_eq_ok h
  have hpath : setup.path = place.path := Except.ok.inj (hpath.symm.trans hwhole)
  have hrestriction := hpart.filter_discover_part_iff htree setup.selection fun file =>
    !setup.config.project.isBackendFile file
  simp only [Bool.not_eq_true'] at hrestriction
  rw [← hpath] at hrestriction
  refine ⟨?_, ?_, fun file => ?_, hpath ▸ hrestriction, fun hpatterns => ?_⟩
  · rw [checkReport_eq, h]
    rfl
  · rw [checkReport_eq, hsetup, h]
    rfl
  · rw [CheckSetup.files, List.mem_filter, Bool.not_eq_true']
    refine (and_congr_left' (hpart.mem_discover_part_iff htree)).trans ?_
    rw [← exists_and_right]
    exact exists_congr fun names => by rw [and_assoc, and_comm (b := _ = false)]; rfl
  · refine hrestriction.2 fun file names hfound _ => ?_
    rw [hpath] at hfound
    exact hpart.selects_part_eq htree
      (FileSelection.isUnanchored_of_ofPatterns hpatterns hselection) hfound

/-! ## A part that sees what the whole sees -/

theorem isPart_singleton {s : OsString} (hreached : tree.Reached (place ++ [s]))
    (henters : tree.EntersEntry env place s) (hholds : tree.HoldsProjectFile place.path)
    (hnone : ¬ tree.HoldsProjectFile (Location.path (place ++ [s]))) :
    IsPart tree env place [s] where
  reached := hreached
  holdsDirectory := henters.holdsDirectory
  enters := ⟨henters, trivial⟩
  holdsFile := hholds
  holdsNone := by
    rintro names hne hinitial
    obtain ⟨t, rest, rfl⟩ := List.exists_cons_of_ne_nil hne
    obtain ⟨rfl, hrest⟩ := List.cons_prefix_cons.1 hinitial
    rwa [List.prefix_nil.1 hrest]

/-- The small project with a test beside the caller, and a file that excludes tests. -/
def testedTree : FileTree :=
  (callerTree.put ["app", "src", "main.test.ts"] (.file (.text ""))).put ["app", ".exposer.toml"]
    (.file (.text "[targeting]\nexclude = [\"**/*.test.ts\"]\n"))

theorem isProper_testedTree : testedTree.IsProper :=
  (isProper_callerTree.put (.file _) (by decide) (by decide)).put (.file _) (by decide) (by decide)

theorem isPart_testedTree : IsPart testedTree [] ["app"] ["src"] := by
  have happ : testedTree.Reached ["app"] := .entry .top rfl rfl nofun (by decide)
  exact isPart_singleton (.entry happ rfl rfl nofun (by decide))
    ⟨by decide, by decide +kernel, by decide +kernel⟩ (by decide +kernel) (by decide +kernel)

theorem files_part_testedTree :
    ∃ setup, setUp testedTree [] (some ⟨"/app"⟩) {} = .ok setup ∧
      setUp testedTree [] (some ⟨"/app/src"⟩) {} = .ok (setup.withPath ⟨"/app/src"⟩) ∧
      (setup.withPath ⟨"/app/src"⟩).files testedTree [] =
        setup.filesIn testedTree [] ⟨"/app/src"⟩ := by
  have hpatterns : (setUp testedTree [] (some ⟨"/app"⟩) {}).map
      (fun setup => setup.config.includes ++ setup.config.excludes) = .ok ["**/*.test.ts"] := by
    decide +kernel
  obtain ⟨setup, hsetup, hpatterns⟩ := map_eq_ok_iff.1 hpatterns
  obtain ⟨hpart, hfiles⟩ := @check_part testedTree [] (some ⟨"/app"⟩) (some ⟨"/app/src"⟩) {}
    ["app"] ["src"] isProper_testedTree isPart_testedTree (fun _ => nofun) (by decide +kernel)
    (by decide +kernel)
  rw [hsetup] at hpart
  refine ⟨setup, hsetup, hpart, ?_⟩
  refine (hfiles setup _ hsetup rfl).2.2.2.2 fun pattern hpattern => ?_
  rw [hpatterns, List.mem_singleton] at hpattern
  exact .inl (hpattern ▸ rfl)

/-! ## Parts that see something else -/

/-- The files that a check examines. -/
def examined (tree : FileTree) (env : Environment) (target : FilePath) :
    Except Failure (List FilePath) :=
  (setUp tree env (some target) {}).map (·.files tree env)

/-- The small project with a file that includes what lies in the directory of the caller. -/
def anchoredTree : FileTree :=
  callerTree.put ["app", ".exposer.toml"]
    (.file (.text "[targeting]\ninclude = [\"src/**\"]\n"))

/-- A project that excludes tests, with another directory of the name of the backend. -/
def nestedTree : FileTree :=
  (FileTree.empty.put ["app", "src", "backend", "api.ts"] (.file (.text ""))).put
    ["app", ".exposer.toml"] (.file (.text "[targeting]\nexclude = [\"**/*.test.ts\"]\n"))

/-- The same with a file for a project on the way to that directory. -/
def dividedTree : FileTree :=
  nestedTree.put ["app", "src", ".exposer.toml"]
    (.file (.text "[targeting]\nexclude = [\"**/api.ts\"]\n"))

theorem isPart_anchoredTree : IsPart anchoredTree [] ["app"] ["src"] := by
  have happ : anchoredTree.Reached ["app"] := .entry .top rfl rfl nofun (by decide)
  exact isPart_singleton (.entry happ rfl rfl nofun (by decide))
    ⟨by decide, by decide +kernel, by decide +kernel⟩ (by decide +kernel) (by decide +kernel)

theorem isPart_nestedTree : IsPart nestedTree [("EXPOSER_ROOT", ".")] ["app"] ["src"] := by
  have happ : nestedTree.Reached ["app"] := .entry .top rfl rfl nofun (by decide)
  exact isPart_singleton (.entry happ rfl rfl nofun (by decide))
    ⟨by decide, by decide +kernel, by decide +kernel⟩ (by decide +kernel) (by decide +kernel)

theorem isEntered_dividedTree : dividedTree.IsEntered [] ["app"] ["src", "backend"] := by
  have happ : dividedTree.Reached ["app"] := .entry .top rfl rfl nofun (by decide)
  have hsrc : dividedTree.Reached ["app", "src"] := .entry happ rfl rfl nofun (by decide)
  exact ⟨.entry hsrc rfl rfl nofun (by decide), by decide +kernel,
    ⟨by decide, by decide +kernel, by decide +kernel⟩,
    ⟨by decide, by decide +kernel, by decide +kernel⟩, trivial⟩

/-- **A part need not examine what the whole examines there**: a pattern may name a directory on the
way, a directory on the way may have a file for a project, and the variable for the root may hold a
relative path, which is seen from the directory that is checked. -/
theorem check_part_differs :
    (IsPart anchoredTree [] ["app"] ["src"] ∧
      examined anchoredTree [] ⟨"/app"⟩ = .ok [⟨"/app/src/main.ts"⟩] ∧
      examined anchoredTree [] ⟨"/app/src"⟩ = .ok []) ∧
    (dividedTree.IsEntered [] ["app"] ["src", "backend"] ∧
      dividedTree.HoldsProjectFile ⟨"/app"⟩ ∧
      ¬ dividedTree.HoldsProjectFile ⟨"/app/src/backend"⟩ ∧
      examined dividedTree [] ⟨"/app"⟩ = .ok [⟨"/app/src/backend/api.ts"⟩] ∧
      examined dividedTree [] ⟨"/app/src/backend"⟩ = .ok []) ∧
    (IsPart nestedTree [("EXPOSER_ROOT", ".")] ["app"] ["src"] ∧
      examined nestedTree [("EXPOSER_ROOT", ".")] ⟨"/app"⟩ = .ok [⟨"/app/src/backend/api.ts"⟩] ∧
      examined nestedTree [("EXPOSER_ROOT", ".")] ⟨"/app/src"⟩ = .ok []) := by
  refine ⟨⟨isPart_anchoredTree, ?_, ?_⟩, ⟨isEntered_dividedTree, ?_, ?_, ?_, ?_⟩,
    isPart_nestedTree, ?_, ?_⟩
  all_goals decide +kernel

end Command

end RemoteImports
