import RemoteImports.Proofs.Config.Layers
import RemoteImports.Proofs.Config.ProjectFile

/-!
# What a configuration is resolved to

What is built in, two files, the environment and the flags are the layers of a configuration
(`Config.layers`), and each step of its resolution puts one of them over the others. So every
setting comes from the highest layer that has it, and the source that is noted for it says so
(`resolve_layered`). The resolution fails for one of three reasons, which are looked at in a row:
the file of the user, the file of the project, and the variable for the output format
(`resolve_eq_error_iff`). A variable that holds no text is passed over, and the directories above
one are those of the path as it is written (`resolve_passes_over`).
-/

namespace RemoteImports

/-- The variable of the environment for a setting. -/
def Setting.variable : Setting → String
  | format => "EXPOSER_FORMAT"
  | quiet => "EXPOSER_QUIET"
  | root => "EXPOSER_ROOT"
  | backend => "EXPOSER_BACKEND_DIR"
  | extensions => "EXPOSER_EXTENSIONS"
  | includes => "EXPOSER_INCLUDE"
  | excludes => "EXPOSER_EXCLUDE"

namespace Config

/-! ## The layers -/

/-- Settings that all have one source. -/
def Layer.of (source : Source) (given : (k : Setting) → Option k.Value) : Layer :=
  fun k => (given k).map fun value => (value, source)

/-- The layer that is built in gives all settings. -/
def builtInLayer (working : FilePath) : Layer :=
  .of .builtIn fun
    | .format => some .text
    | .quiet => some false
    | .root => some working
    | .backend => some ⟨"backend"⟩
    | .extensions => some ["js", "mjs", "cjs", "jsx", "ts", "mts", "cts", "tsx"]
    | .includes => some []
    | .excludes => some []

/-- The format with a name, small or capital. -/
def formatNamed? (name : String) : Option OutputFormat :=
  OutputFormat.ofName? (Text.lowercase name)

/-- The settings of a file. A root is seen from the directory of the file. -/
def ofFile (file : FilePath) (s : FileSettings) : (k : Setting) → Option k.Value
  | .format => s.format.bind formatNamed?
  | .quiet => s.quiet
  | .root => s.root.map fun root : String => (file.parent?.getD ⟨"."⟩).join ⟨root⟩
  | .backend => s.backend.map FilePath.mk
  | .extensions => s.extensions.map cleanExtensions
  | .includes => nonempty? s.includes
  | .excludes => nonempty? s.excludes

/-- The settings of the file of a project. Its directory is the root if the file names none. -/
def ofProjectFile (file : FilePath) (s : FileSettings) : (k : Setting) → Option k.Value
  | .root => (ofFile file s .root).or file.parent?
  | k => ofFile file s k

/-- The value that the text of a variable stands for. A root is seen from the working directory. -/
def ofText (working : FilePath) : (k : Setting) → String → Option k.Value
  | .format, text => formatNamed? text
  | .quiet, text => some (isOn text)
  | .root, text => some (working.join ⟨text⟩)
  | .backend, text => some ⟨text⟩
  | .extensions, text => some (cleanExtensions (listMembers text))
  | .includes, text => some (listMembers text)
  | .excludes, text => some (listMembers text)

/-- The layer of the environment: the variables that hold texts. -/
def environmentLayer (working : FilePath) (env : Environment) : Layer := fun k =>
  ((env.text? k.variable).bind (ofText working k)).map (·, .environment k.variable)

/-- The layer of the flags. The extensions have none. -/
def flagLayer (flags : Overrides) : Layer
  | .format => flags.format.map (·, .flag "--format")
  | .quiet => if flags.quiet then some (true, .flag "--quiet") else none
  | .root => flags.root.map (·, .flag "--root")
  | .backend => flags.backend.map (·, .flag "--backend-dir")
  | .extensions => none
  | .includes => (nonempty? flags.includes).map (·, .flag "--include")
  | .excludes => (nonempty? flags.excludes).map (·, .flag "--exclude")

/-- A configuration file with the settings that it holds. -/
abbrev LoadedFile : Type := FilePath × FileSettings

/-- The layer of the user's file. -/
def userLayer (f : LoadedFile) : Layer := .of (.userConfig f.1) (ofFile f.1 f.2)

/-- The layer of the file of the project. -/
def projectLayer (f : LoadedFile) : Layer := .of (.projectConfig f.1) (ofProjectFile f.1 f.2)

/-- The layers of a configuration, the highest one first. -/
def layers (working : FilePath) (user project : Option LoadedFile) (env : Environment)
    (flags : Overrides) : List Layer :=
  [flagLayer flags, environmentLayer working env] ++
    (project.toList.map projectLayer ++ (user.toList.map userLayer ++ [builtInLayer working]))

variable {config config' : Config} {tree : FileTree} {env : Environment} {working file : FilePath}
  {flags : Overrides} {s : FileSettings} {source : Source} {layer : ConfigLayer}
  {fault : ConfigFault} {lower : List Layer}

theorem isLayered_builtIn (working : FilePath) :
    (builtIn working).IsLayered [builtInLayer working] := by
  intro k
  cases k <;> rfl

/-! ## Output formats -/

theorem formatOf?_some (name : String) :
    formatOf? (some name) =
      match formatNamed? name with
      | some format => .ok (some format)
      | none => .error (.unknownFormat name) := by
  rw [formatOf?, formatOf, formatNamed?]
  cases OutputFormat.ofName? (Text.lowercase name) with
  | none => rfl
  | some format => rfl

/-- The name of an output format, if there is one, is good. -/
def IsKnownFormat (name : Option String) : Prop :=
  ∀ text, name = some text → (formatNamed? text).isSome

/-- There is the name of an output format that does not exist. -/
def UnknownFormat (name : Option String) (fault : ConfigFault) : Prop :=
  ∃ text, name = some text ∧ formatNamed? text = none ∧ fault = .unknownFormat text

theorem formatOf?_eq_ok_iff {name : Option String} {format : Option OutputFormat} :
    formatOf? name = .ok format ↔ IsKnownFormat name ∧ format = name.bind formatNamed? := by
  cases name with
  | none =>
    constructor
    · intro h
      cases h
      exact ⟨nofun, rfl⟩
    · rintro ⟨-, rfl⟩
      rfl
  | some text =>
    rw [formatOf?_some, Option.bind_some]
    cases hformat : formatNamed? text with
    | none =>
      refine iff_of_false nofun fun ⟨hknown, _⟩ => ?_
      have hsome := hknown text rfl
      rw [hformat] at hsome
      cases hsome
    | some found =>
      constructor
      · intro h
        cases h
        refine ⟨fun text' h => ?_, rfl⟩
        cases h
        rw [hformat]
        rfl
      · rintro ⟨-, rfl⟩
        rfl

theorem formatOf?_eq_error_iff {name : Option String} :
    formatOf? name = .error fault ↔ UnknownFormat name fault := by
  cases name with
  | none => exact iff_of_false nofun fun ⟨_, h, _⟩ => nomatch h
  | some text =>
    rw [formatOf?_some]
    cases hformat : formatNamed? text with
    | none =>
      constructor
      · intro h
        cases h
        exact ⟨text, rfl, hformat, rfl⟩
      · rintro ⟨_, h, -, rfl⟩
        cases h
        rfl
    | some found =>
      refine iff_of_false nofun ?_
      rintro ⟨_, h, hnone, -⟩
      cases h
      cases hformat.symm.trans hnone

/-! ## One step of the resolution -/

/-- Seven settings in a row make a layer. -/
theorem overlay_eq (config : Config) (layer : Layer) :
    config.overlay layer =
      ((((((config.give .format (layer .format)).give .quiet (layer .quiet)).give
        .root (layer .root)).give .backend (layer .backend)).give
        .extensions (layer .extensions)).give .includes (layer .includes)).give
        .excludes (layer .excludes) := rfl

/-- **The settings of a file** go over a configuration as a layer. -/
theorem withFile_eq (config : Config) (s : FileSettings) (file : FilePath) (source : Source) :
    config.withFile s file source =
      (formatOf? s.format).map fun _ => config.overlay (.of source (ofFile file s)) := by
  rw [withFile]
  cases hformat : formatOf? s.format with
  | error fault => rfl
  | ok format =>
    obtain ⟨-, rfl⟩ := formatOf?_eq_ok_iff.1 hformat
    rw [overlay_eq]
    refine congrArg Except.ok ?_
    refine withSetting_eq_give (k := .excludes) ?_ rfl (fun _ => rfl) rfl
    refine withSetting_eq_give (k := .includes) ?_ rfl (fun _ => rfl) rfl
    refine withSetting_eq_give (k := .extensions) ?_ rfl (fun _ => rfl) (Option.map_map ..)
    refine withSetting_eq_give (k := .backend) ?_ rfl (fun _ => rfl) (Option.map_map ..)
    refine withSetting_eq_give (k := .root) ?_ rfl (fun _ => rfl) (Option.map_map ..)
    refine withSetting_eq_give (k := .quiet) ?_ rfl (fun _ => rfl) rfl
    exact withSetting_eq_give (k := .format) rfl rfl (fun _ => rfl) rfl

/-- A variable that is never faulty gives its setting. -/
theorem environmentLayer_of_total (env : Environment) {k : Setting} {valueOf : String → k.Value}
    (h : ∀ text, ofText working k text = some (valueOf text)) :
    environmentLayer working env k =
      (env.text? k.variable).map fun text => (valueOf text, .environment k.variable) := by
  rw [environmentLayer]
  cases env.text? k.variable with
  | none => rfl
  | some text => rw [Option.bind_some, h text, Option.map_some, Option.map_some]

theorem withEnvironment_eq (config : Config) (working : FilePath) (env : Environment) :
    config.withEnvironment working env =
      (formatOf? (env.text? "EXPOSER_FORMAT")).map fun _ =>
        config.overlay (environmentLayer working env) := by
  rw [withEnvironment]
  cases hformat : formatOf? (env.text? "EXPOSER_FORMAT") with
  | error fault => rfl
  | ok format =>
    obtain ⟨-, rfl⟩ := formatOf?_eq_ok_iff.1 hformat
    rw [overlay_eq]
    refine congrArg Except.ok ?_
    refine withSetting_eq_give (k := .excludes) ?_ rfl (fun _ => rfl)
      (environmentLayer_of_total env fun _ => rfl)
    refine withSetting_eq_give (k := .includes) ?_ rfl (fun _ => rfl)
      (environmentLayer_of_total env fun _ => rfl)
    refine withSetting_eq_give (k := .extensions) ?_ rfl (fun _ => rfl)
      (environmentLayer_of_total env fun _ => rfl)
    refine withSetting_eq_give (k := .backend) ?_ rfl (fun _ => rfl)
      (environmentLayer_of_total env fun _ => rfl)
    refine withSetting_eq_give (k := .root) ?_ rfl (fun _ => rfl)
      (environmentLayer_of_total env fun _ => rfl)
    refine withSetting_eq_give (k := .quiet) ?_ rfl (fun _ => rfl)
      (environmentLayer_of_total env fun _ => rfl)
    exact withSetting_eq_give (k := .format) rfl rfl (fun _ => rfl) rfl

theorem withOverrides_eq (config : Config) (flags : Overrides) :
    config.withOverrides flags = config.overlay (flagLayer flags) := by
  rw [withOverrides, overlay_eq]
  refine withSetting_eq_give (k := .excludes) ?_ rfl (fun _ => rfl) rfl
  refine withSetting_eq_give (k := .includes) ?_ rfl (fun _ => rfl) rfl
  refine withSetting_eq_give (k := .backend) ?_ rfl (fun _ => rfl) rfl
  refine withSetting_eq_give (k := .root) ?_ rfl (fun _ => rfl) rfl
  refine withSetting_eq_give (k := .quiet) ?_ rfl (fun _ => rfl) ?_
  · exact withSetting_eq_give (k := .format) rfl rfl (fun _ => rfl) rfl
  · rw [flagLayer]
    split <;> rfl

/-! ## Files -/

/-- A file that can be used: it reads as settings, and its output format exists. -/
structure Loads (tree : FileTree) (file : FilePath) (s : FileSettings) : Prop where
  parsed : ∃ text, tree.read file = .ok text ∧ FileSettings.parse text = .ok s
  known : IsKnownFormat s.format

/-- What is wrong with a file that cannot be used. -/
inductive Faulty (tree : FileTree) (layer : ConfigLayer) (file : FilePath) : ConfigFault → Prop
  | unreadable {fault : FileFault} (h : tree.read file = .error fault) :
      Faulty tree layer file (.unreadable layer file)
  | invalid {text : String} {fault : TomlFault} (hread : tree.read file = .ok text)
      (h : FileSettings.parse text = .error fault) :
      Faulty tree layer file (.invalid layer (fault.message text.toList))
  | unknownFormat {text : String} {s : FileSettings} {fault : ConfigFault}
      (hread : tree.read file = .ok text) (hparse : FileSettings.parse text = .ok s)
      (h : UnknownFormat s.format fault) : Faulty tree layer file fault

theorem readFile_eq_ok_iff :
    readFile tree layer file = .ok s ↔
      ∃ text, tree.read file = .ok text ∧ FileSettings.parse text = .ok s := by
  unfold readFile
  split
  · rename_i hread
    simp [hread]
  · rename_i text hread
    rw [mapError_eq_ok_iff]
    simp [hread]

theorem readFile_eq_error_iff :
    readFile tree layer file = .error fault ↔
      (∃ reason, tree.read file = .error reason ∧ fault = .unreadable layer file) ∨
      ∃ text reason, tree.read file = .ok text ∧ FileSettings.parse text = .error reason ∧
        fault = .invalid layer (reason.message text.toList) := by
  unfold readFile
  split
  · rename_i hread
    simp [hread, eq_comm]
  · rename_i text hread
    cases hparse : FileSettings.parse text with
    | error reason => simp [hread, hparse, Except.mapError, eq_comm]
    | ok s => simp [hread, hparse, Except.mapError]

/-- The settings of a file go on to another step if the file can be used. -/
theorem readFile_bind_eq_ok_iff {f : FileSettings → Config} :
    (readFile tree layer file >>= fun s => (formatOf? s.format).map fun _ => f s) = .ok config ↔
      ∃ s, Loads tree file s ∧ f s = config := by
  refine bind_eq_ok_iff.trans (exists_congr fun s => ?_)
  rw [readFile_eq_ok_iff, map_eq_ok_iff, exists_and_right, ← and_assoc]
  refine and_congr_left fun _ => ⟨fun ⟨hparsed, format, hformat⟩ => ?_, fun h => ?_⟩
  · exact ⟨hparsed, (formatOf?_eq_ok_iff.1 hformat).1⟩
  · exact ⟨h.parsed, _, formatOf?_eq_ok_iff.2 ⟨h.known, rfl⟩⟩

/-- Else the step fails with what is wrong with the file. -/
theorem readFile_bind_eq_error_iff {f : FileSettings → Config} :
    (readFile tree layer file >>= fun s => (formatOf? s.format).map fun _ => f s) = .error fault ↔
      Faulty tree layer file fault := by
  rw [bind_eq_error_iff, readFile_eq_error_iff]
  simp only [map_eq_error_iff, formatOf?_eq_error_iff, readFile_eq_ok_iff]
  constructor
  · rintro ((⟨reason, hread, rfl⟩ | ⟨text, reason, hread, hparse, rfl⟩) |
      ⟨s, ⟨text, hread, hparse⟩, hformat⟩)
    · exact .unreadable hread
    · exact .invalid hread hparse
    · exact .unknownFormat hread hparse hformat
  · intro h
    cases h with
    | unreadable hread => exact .inl (.inl ⟨_, hread, rfl⟩)
    | invalid hread hparse => exact .inl (.inr ⟨_, _, hread, hparse, rfl⟩)
    | unknownFormat hread hparse hformat => exact .inr ⟨_, ⟨_, hread, hparse⟩, hformat⟩

/-- The settings of a file, if there is one, which can be used then. -/
inductive LoadsFrom (tree : FileTree) : Option FilePath → Option LoadedFile → Prop
  | none : LoadsFrom tree none none
  | some {file : FilePath} {s : FileSettings} (h : Loads tree file s) :
      LoadsFrom tree (some file) (some (file, s))

/-! ## What the steps leave alone -/

theorem standing_withLoaded (config : Config) (file : FilePath) (k : Setting) :
    (config.withLoaded file).standing k = config.standing k := by
  cases k <;> rfl

theorem loadedFiles_give (config : Config) (k : Setting) (given : Option (k.Value × Source)) :
    (config.give k given).loadedFiles = config.loadedFiles := by
  cases given with
  | none => rfl
  | some given => cases k <;> rfl

theorem loadedFiles_overlay (config : Config) (layer : Layer) :
    (config.overlay layer).loadedFiles = config.loadedFiles := by
  simp only [overlay_eq, loadedFiles_give]

/-! ## The files on top of one another -/

theorem withUserFile_of_file (config : Config) (h : userFile? tree env = some file) :
    config.withUserFile tree env = (readFile tree .user file >>= fun s =>
      (formatOf? s.format).map fun _ =>
        (config.overlay (userLayer (file, s))).withLoaded file) := by
  unfold withUserFile
  rw [h]
  refine congrArg (readFile tree .user file >>= ·) (funext fun s => ?_)
  rw [withFile_eq]
  cases formatOf? s.format <;> rfl

theorem withProjectFile_of_file (config : Config) (h : projectFile? tree working = some file) :
    config.withProjectFile tree working = (readFile tree .project file >>= fun s =>
      (formatOf? s.format).map fun _ =>
        ((config.give .root (file.parent?.map (·, .projectConfig file))).overlay
          (.of (.projectConfig file) (ofFile file s))).withLoaded file) := by
  unfold withProjectFile
  rw [h]
  refine congrArg (readFile tree .project file >>= ·) (funext fun s => ?_)
  have hroot : config.withSetting "project.root" (.projectConfig file) file.parent?
      (fun config root => { config with root }) =
        config.give .root (file.parent?.map (·, .projectConfig file)) := by
    cases file.parent? <;> rfl
  simp only [hroot, withFile_eq]
  cases formatOf? s.format <;> rfl

/-- **The directory of the file of a project** is its root unless the file names one. -/
theorem IsLayered.overlay_project (h : config.IsLayered lower) (file : FilePath)
    (s : FileSettings) :
    ((config.give .root (file.parent?.map (·, .projectConfig file))).overlay
      (.of (.projectConfig file) (ofFile file s))).IsLayered (projectLayer (file, s) :: lower) := by
  intro k
  rw [standing_overlay, highest?_cons, ← h k]
  by_cases hk : k = .root
  · subst hk
    rw [standing_give, ← Option.or_assoc, Layer.of, ← Option.map_or]
    rfl
  · rw [standing_give_of_ne config hk]
    cases k with
    | root => exact absurd rfl hk
    | format | quiet | backend | extensions | includes | excludes => rfl

theorem withUserFile_eq_ok (h : config.withUserFile tree env = .ok config')
    (hconfig : config.IsLayered lower) :
    ∃ user, LoadsFrom tree (userFile? tree env) user ∧
      config'.IsLayered (user.toList.map userLayer ++ lower) ∧
      config'.loadedFiles = config.loadedFiles ++ user.toList.map Prod.fst := by
  cases hfile : userFile? tree env with
  | none =>
    rw [withUserFile, hfile] at h
    cases h
    exact ⟨none, .none, hconfig, (List.append_nil _).symm⟩
  | some file =>
    rw [withUserFile_of_file config hfile] at h
    obtain ⟨s, hs, rfl⟩ := readFile_bind_eq_ok_iff.1 h
    refine ⟨some (file, s), .some hs, fun k => ?_, ?_⟩
    · rw [standing_withLoaded]
      exact hconfig.overlay _ k
    · rw [withLoaded, loadedFiles_overlay]
      rfl

theorem withProjectFile_eq_ok (h : config.withProjectFile tree working = .ok config')
    (hconfig : config.IsLayered lower) :
    ∃ project, LoadsFrom tree (projectFile? tree working) project ∧
      config'.IsLayered (project.toList.map projectLayer ++ lower) ∧
      config'.loadedFiles = config.loadedFiles ++ project.toList.map Prod.fst := by
  cases hfile : projectFile? tree working with
  | none =>
    rw [withProjectFile, hfile] at h
    cases h
    exact ⟨none, .none, hconfig, (List.append_nil _).symm⟩
  | some file =>
    rw [withProjectFile_of_file config hfile] at h
    obtain ⟨s, hs, rfl⟩ := readFile_bind_eq_ok_iff.1 h
    refine ⟨some (file, s), .some hs, fun k => ?_, ?_⟩
    · rw [standing_withLoaded]
      exact hconfig.overlay_project file s k
    · rw [withLoaded, loadedFiles_overlay, loadedFiles_give]
      rfl

/-! ## Failures -/

/-- A configuration file is there that cannot be used. -/
def FileFaulty (tree : FileTree) (layer : ConfigLayer) (file? : Option FilePath)
    (fault : ConfigFault) : Prop :=
  ∃ file, file? = some file ∧ Faulty tree layer file fault

theorem withUserFile_eq_error_iff :
    config.withUserFile tree env = .error fault ↔
      FileFaulty tree .user (userFile? tree env) fault := by
  cases hfile : userFile? tree env with
  | none =>
    rw [withUserFile, hfile]
    exact iff_of_false nofun fun ⟨_, h, _⟩ => nomatch h
  | some file =>
    rw [withUserFile_of_file config hfile, readFile_bind_eq_error_iff]
    simp [FileFaulty]

theorem withProjectFile_eq_error_iff :
    config.withProjectFile tree working = .error fault ↔
      FileFaulty tree .project (projectFile? tree working) fault := by
  cases hfile : projectFile? tree working with
  | none =>
    rw [withProjectFile, hfile]
    exact iff_of_false nofun fun ⟨_, h, _⟩ => nomatch h
  | some file =>
    rw [withProjectFile_of_file config hfile, readFile_bind_eq_error_iff]
    simp [FileFaulty]

theorem withEnvironment_eq_error_iff :
    config.withEnvironment working env = .error fault ↔
      UnknownFormat (env.text? "EXPOSER_FORMAT") fault := by
  rw [withEnvironment_eq, map_eq_error_iff, formatOf?_eq_error_iff]

/-! ## The resolution -/

/-- **Every setting comes from the highest layer that has it.** -/
theorem isLayered_of_resolve (h : resolve tree env working flags = .ok config) :
    ∃ user project, LoadsFrom tree (userFile? tree env) user ∧
      LoadsFrom tree (projectFile? tree working) project ∧
      config.IsLayered (layers working user project env flags) ∧
      config.loadedFiles = (user.toList ++ project.toList).map Prod.fst := by
  obtain ⟨afterUser, huser, h⟩ := bind_eq_ok_iff.1 h
  obtain ⟨afterProject, hproject, h⟩ := bind_eq_ok_iff.1 h
  obtain ⟨afterEnvironment, henvironment, h⟩ := bind_eq_ok_iff.1 h
  obtain ⟨user, hloadsUser, hlayeredUser, hfilesUser⟩ :=
    withUserFile_eq_ok huser (isLayered_builtIn working)
  obtain ⟨project, hloadsProject, hlayeredProject, hfilesProject⟩ :=
    withProjectFile_eq_ok hproject hlayeredUser
  rw [withEnvironment_eq] at henvironment
  obtain ⟨-, -, rfl⟩ := map_eq_ok_iff.1 henvironment
  cases h
  refine ⟨user, project, hloadsUser, hloadsProject, ?_, ?_⟩
  · rw [withOverrides_eq]
    exact (hlayeredProject.overlay (environmentLayer working env)).overlay (flagLayer flags)
  · rw [withOverrides_eq, loadedFiles_overlay, loadedFiles_overlay, hfilesProject, hfilesUser,
      List.map_append]
    rfl

/-- A layered configuration knows the source of each setting. -/
theorem IsLayered.exists_source {user project : Option LoadedFile}
    (h : config.IsLayered (layers working user project env flags)) (k : Setting) :
    ∃ source, config.provenance.get? k.key = some source ∧
      highest? (layers working user project env flags) k = some (config.value k, source) := by
  have hsome : (highest? (layers working user project env flags) k).isSome := by
    rw [highest?, List.findSome?_isSome_iff]
    refine ⟨builtInLayer working, by simp [layers], ?_⟩
    cases k <;> rfl
  obtain ⟨⟨value, source⟩, hgiven⟩ := Option.isSome_iff_exists.1 hsome
  obtain ⟨rfl, hsource⟩ := standing_eq_some_iff.1 ((h k).trans hgiven)
  exact ⟨source, hsource, hgiven⟩

/-- **The first fault decides**: in the file of the user, in that of the project, in the variable
for the output format. -/
theorem resolve_eq_error_iff :
    resolve tree env working flags = .error fault ↔
      FileFaulty tree .user (userFile? tree env) fault ∨
        (∀ other, ¬ FileFaulty tree .user (userFile? tree env) other) ∧
          (FileFaulty tree .project (projectFile? tree working) fault ∨
            (∀ other, ¬ FileFaulty tree .project (projectFile? tree working) other) ∧
              UnknownFormat (env.text? "EXPOSER_FORMAT") fault) := by
  have henvironment (config : Config) :
      (config.withEnvironment working env >>= fun config => .ok (config.withOverrides flags)) =
          .error fault ↔ UnknownFormat (env.text? "EXPOSER_FORMAT") fault := by
    rw [bind_eq_error_iff, withEnvironment_eq_error_iff]
    exact or_iff_left fun ⟨_, _, h⟩ => nomatch h
  have hproject (config : Config) :
      (config.withProjectFile tree working >>= fun config =>
        config.withEnvironment working env >>= fun config => .ok (config.withOverrides flags)) =
          .error fault ↔
        FileFaulty tree .project (projectFile? tree working) fault ∨
          (∀ other, ¬ FileFaulty tree .project (projectFile? tree working) other) ∧
            UnknownFormat (env.text? "EXPOSER_FORMAT") fault := by
    rw [bind_eq_error_iff_of_forall henvironment]
    simp only [ne_eq, withProjectFile_eq_error_iff]
  unfold resolve
  rw [bind_eq_error_iff_of_forall hproject]
  simp only [ne_eq, withUserFile_eq_error_iff]

/-- **A configuration is resolved layer by layer.** Every setting and its source are those of the
highest layer that has it; the file of the project is that of the nearest directory that holds one,
which is the parent of the file; and there is a configuration unless a file or the variable for the
output format is faulty. -/
theorem resolve_layered (tree : FileTree) (env : Environment) (working : FilePath)
    (flags : Overrides) :
    (∀ config, resolve tree env working flags = .ok config →
      ∃ user project, LoadsFrom tree (userFile? tree env) user ∧
        LoadsFrom tree (projectFile? tree working) project ∧
        config.loadedFiles = (user.toList ++ project.toList).map Prod.fst ∧
        ∀ k : Setting, ∃ source, config.provenance.get? k.key = some source ∧
          highest? (layers working user project env flags) k = some (config.value k, source)) ∧
    (∃ dir?, working.Nearest tree.HoldsProjectFile dir? ∧
      projectFile? tree working = dir?.map (·.child projectFileName) ∧
      ∀ dir, dir? = some dir → ∃ parent, (dir.child projectFileName).parent? = some parent ∧
        parent.components = dir.components) ∧
    ((∃ fault, resolve tree env working flags = .error fault) ↔
      (∃ fault, FileFaulty tree .user (userFile? tree env) fault) ∨
        (∃ fault, FileFaulty tree .project (projectFile? tree working) fault) ∨
          ∃ fault, UnknownFormat (env.text? "EXPOSER_FORMAT") fault) := by
  refine ⟨fun config h => ?_, ?_, ?_⟩
  · obtain ⟨user, project, huser, hproject, hlayered, hfiles⟩ := isLayered_of_resolve h
    exact ⟨user, project, huser, hproject, hfiles, hlayered.exists_source⟩
  · obtain ⟨dir?, hnearest, hfile⟩ := projectFile?_nearest tree working
    exact ⟨dir?, hnearest, hfile, fun dir _ => exists_parent?_projectFile dir⟩
  · simp only [resolve_eq_error_iff]
    by_cases huser : ∃ fault, FileFaulty tree .user (userFile? tree env) fault
    · obtain ⟨fault, hfault⟩ := huser
      exact iff_of_true ⟨fault, .inl hfault⟩ (.inl ⟨fault, hfault⟩)
    by_cases hproject : ∃ fault, FileFaulty tree .project (projectFile? tree working) fault
    · obtain ⟨fault, hfault⟩ := hproject
      exact iff_of_true ⟨fault, .inr ⟨not_exists.1 huser, .inl hfault⟩⟩
        (.inr (.inl ⟨fault, hfault⟩))
    · simp only [not_exists] at huser hproject
      simp [huser, hproject]

/-- A file of the user, and a file of a project in a directory above the one that is worked in. -/
def layeredTree : FileTree :=
  (FileTree.empty.put ["home", ".config", "exposer", "config.toml"]
    (.file (.text "[defaults]\nformat = \"json\"\nquiet = true\n"))).put ["app", ".exposer.toml"]
      (.file (.text "[project]\nbackend_dir = \"server\"\n"))

example :
    (resolve layeredTree [("HOME", "/home"), ("EXPOSER_QUIET", "0")] ⟨"/app/src"⟩
      { includes := ["*.ts"] }).map (fun config => (config.quiet, config.provenance.entries)) =
    .ok (false, [("defaults.format", .userConfig ⟨"/home/.config/exposer/config.toml"⟩),
      ("defaults.quiet", .environment "EXPOSER_QUIET"),
      ("project.backend_dir", .projectConfig ⟨"/app/.exposer.toml"⟩),
      ("project.root", .projectConfig ⟨"/app/.exposer.toml"⟩), ("resolve.extensions", .builtIn),
      ("targeting.exclude", .builtIn), ("targeting.include", .flag "--include")]) := by
  decide +kernel

/-- **What a resolution passes over**: a variable that is defined but holds no text, and that two
dots lead out of the directory before them. -/
theorem resolve_passes_over :
    (resolve .empty [("EXPOSER_ROOT", ⟨[0x2F, 0x73, 0x72, 0x76, 0x2F, 0xFF]⟩)] ⟨"/app"⟩ {}).map
        (fun config => (config.root, config.provenance.get? "project.root")) =
      .ok (⟨"/app"⟩, some .builtIn) ∧
    layeredTree.canonical ⟨"/app/../home"⟩ = .ok ⟨"/home"⟩ ∧
    ¬ layeredTree.contains ⟨"/home/.exposer.toml"⟩ ∧ ¬ layeredTree.contains ⟨"/.exposer.toml"⟩ ∧
    (resolve layeredTree [] ⟨"/app/../home"⟩ {}).map
        (fun config => (config.backend, config.loadedFiles)) =
      .ok (⟨"server"⟩, [⟨"/app/.exposer.toml"⟩]) := by
  refine ⟨?_, ?_, ?_, ?_, ?_⟩ <;> decide +kernel

end Config

end RemoteImports
