import RemoteImports.Command.Run
import RemoteImports.Proofs.Config.Provenance
import RemoteImports.Proofs.Config.Resolution

/-!
# The configuration that is shown

Whatever its layers are, a resolved configuration tracks the seven settings and no other key
(`tracksSettings_of_resolve`). So the text that shows it has one line for each of them, or for those
that are not built in, in the order of the keys, each under the section of its key, with the value
that the configuration has and the source of that value (`toText_of_resolve`). The commands use
nothing of a configuration but these values (`Command.uses_congr`).
-/

namespace RemoteImports

namespace Setting

/-- The settings in the order of their keys. -/
def inKeyOrder : List Setting := [format, quiet, backend, root, extensions, excludes, includes]

theorem mem_inKeyOrder (k : Setting) : k ∈ inKeyOrder := by cases k <;> decide

theorem pairwise_key_inKeyOrder : (inKeyOrder.map key).Pairwise (· < ·) := by decide +kernel

/-- The text of a value of a setting. -/
def render : (k : Setting) → k.Value → String
  | format, value => value.label
  | quiet, value => if value then "true" else "false"
  | root, value | backend, value => value.text
  | extensions, value | includes, value | excludes, value => Config.listText value

end Setting

namespace Provenance

variable {p : Provenance} {key : String} {entries : List (String × Source)}

/-- Setting a source of a tracked key keeps the keys. -/
theorem map_fst_setEntry (h : IsOrdered entries) (hkey : key ∈ entries.map Prod.fst)
    (source : Source) : (setEntry key source entries).map Prod.fst = entries.map Prod.fst := by
  induction entries with
  | nil => cases hkey
  | cons first rest ih =>
    obtain ⟨other, s⟩ := first
    obtain ⟨hfirst, hrest⟩ := List.pairwise_cons.1 h
    rw [setEntry]
    split
    · rename_i hlt
      rcases List.mem_cons.1 hkey with rfl | hkey
      · exact absurd hlt (lt_irrefl _)
      · obtain ⟨entry, hentry, rfl⟩ := List.mem_map.1 hkey
        exact absurd hlt (lt_asymm (hfirst entry hentry))
    split
    · rename_i heq
      rw [heq]
      rfl
    · rename_i hne
      rw [List.map_cons, ih hrest ((List.mem_cons.1 hkey).resolve_left hne)]
      rfl

theorem isOrdered_iff : IsOrdered p.entries ↔ p.keys.Pairwise (· < ·) := List.pairwise_map.symm

/-- Ordered entries are known from their keys and the sources of these. -/
theorem entries_eq {ks : List Setting} {source : Setting → Source} (h : IsOrdered p.entries)
    (hkeys : p.keys = ks.map Setting.key) (hsource : ∀ k, p.get? k.key = some (source k)) :
    p.entries = ks.map fun k => (k.key, source k) := by
  have hown : p.entries.map (fun e => (e.1, (p.get? e.1).getD .builtIn)) = p.entries := by
    refine (List.map_congr_left fun e he => ?_).trans (List.map_id p.entries)
    have hget : p.get? e.1 = some e.2 := h.mem_iff.1 he
    rw [hget]
    rfl
  calc p.entries = p.keys.map fun key => (key, (p.get? key).getD .builtIn) := by
        rw [keys, List.map_map]
        exact hown.symm
    _ = ks.map fun k => (k.key, source k) := by
        rw [hkeys, List.map_map]
        exact List.map_congr_left fun k _ => by simp [hsource]

end Provenance

namespace Config

open Provenance

variable {config config' : Config} {tree : FileTree} {env : Environment} {working : FilePath}
  {flags : Overrides} {changedOnly : Bool} {source : Setting → Source}

/-! ## The tracked keys -/

/-- The tracked keys are those of the settings. -/
def TracksSettings (config : Config) : Prop :=
  config.provenance.keys = Setting.inKeyOrder.map Setting.key

theorem TracksSettings.isOrdered (h : config.TracksSettings) :
    IsOrdered config.provenance.entries := by
  rw [isOrdered_iff, h]
  exact Setting.pairwise_key_inKeyOrder

theorem tracksSettings_builtIn (working : FilePath) : (builtIn working).TracksSettings := by
  show (keys.foldl (fun p key => p.set key .builtIn) Provenance.empty).keys = _
  decide +kernel

theorem TracksSettings.give (h : config.TracksSettings) (k : Setting)
    (given : Option (k.Value × Source)) : (config.give k given).TracksSettings := by
  cases given with
  | none => exact h
  | some given =>
    have hkey : k.key ∈ config.provenance.keys := by
      rw [h]
      exact List.mem_map_of_mem (Setting.mem_inKeyOrder k)
    have hkeys : (config.provenance.set k.key given.2).keys = config.provenance.keys :=
      map_fst_setEntry h.isOrdered hkey given.2
    rw [TracksSettings, Config.give, noted, provenance_withValue]
    exact hkeys.trans h

theorem TracksSettings.overlay (h : config.TracksSettings) (layer : Layer) :
    (config.overlay layer).TracksSettings := by
  rw [overlay_eq]
  exact ((((((h.give _ _).give _ _).give _ _).give _ _).give _ _).give _ _).give _ _

theorem TracksSettings.withUserFile (h : config.TracksSettings)
    (hconfig : config.withUserFile tree env = .ok config') : config'.TracksSettings := by
  cases hfile : userFile? tree env with
  | none =>
    rw [Config.withUserFile, hfile] at hconfig
    cases hconfig
    exact h
  | some file =>
    rw [withUserFile_of_file config hfile] at hconfig
    obtain ⟨s, -, rfl⟩ := readFile_bind_eq_ok_iff.1 hconfig
    exact h.overlay (userLayer (file, s))

theorem TracksSettings.withProjectFile (h : config.TracksSettings)
    (hconfig : config.withProjectFile tree working = .ok config') : config'.TracksSettings := by
  cases hfile : projectFile? tree working with
  | none =>
    rw [Config.withProjectFile, hfile] at hconfig
    cases hconfig
    exact h
  | some file =>
    rw [withProjectFile_of_file config hfile] at hconfig
    obtain ⟨s, -, rfl⟩ := readFile_bind_eq_ok_iff.1 hconfig
    exact (h.give .root _).overlay (.of (.projectConfig file) (ofFile file s))

/-- **A resolved configuration tracks the settings** and no other key. -/
theorem tracksSettings_of_resolve (h : resolve tree env working flags = .ok config) :
    config.TracksSettings := by
  obtain ⟨afterUser, huser, h⟩ := bind_eq_ok_iff.1 h
  obtain ⟨afterProject, hproject, h⟩ := bind_eq_ok_iff.1 h
  obtain ⟨afterEnvironment, henvironment, h⟩ := bind_eq_ok_iff.1 h
  rw [withEnvironment_eq] at henvironment
  obtain ⟨-, -, rfl⟩ := map_eq_ok_iff.1 henvironment
  cases h
  rw [withOverrides_eq]
  exact ((((tracksSettings_builtIn working).withUserFile huser).withProjectFile hproject).overlay
    (environmentLayer working env)).overlay (flagLayer flags)

/-! ## Lines -/

/-- The line for a setting with a value from a source. -/
def lineFor (k : Setting) (value : k.Value) (source : Source) : String :=
  "    " ++ k.key ++ ": " ++ k.render value ++ " <- " ++ source.text

/-- A key of a setting is always known. -/
theorem valueText_key (config : Config) (k : Setting) :
    config.valueText k.key = k.render (config.value k) := by
  cases k <;> rfl

theorem settingLine_key (config : Config) (k : Setting) (source : Source) :
    config.settingLine (k.key, source) = lineFor k (config.value k) source := by
  rw [settingLine, valueText_key]
  rfl

/-- The lines for the files that were read, in their order. -/
def loadedLines (files : List FilePath) : List String :=
  if files = [] then ["Loaded config files: (none)"]
  else "Loaded config files:" ::
    files.mapIdx fun i file => "  " ++ toString (i + 1) ++ ". " ++ file.text

theorem fileLines_eq (n : ℕ) (files : List FilePath) :
    fileLines n files =
      files.mapIdx fun i file => "  " ++ toString (n + i + 1) ++ ". " ++ file.text := by
  induction files generalizing n with
  | nil => rfl
  | cons file files ih =>
    rw [fileLines, ih, List.mapIdx_cons, Nat.add_zero]
    refine congrArg _ (congrArg (List.mapIdx · files) (funext fun i => ?_))
    rw [Nat.add_right_comm n 1 i, Nat.add_assoc n i 1]

/-! ## The layout of the settings -/

/-- Settings in groups, each with the name of its section. -/
abbrev Layout : Type := List (String × List Setting)

/-- The settings of a layout, in a row. -/
def Layout.settings (layout : Layout) : List Setting := layout.flatMap Prod.snd

/-- **A layout shows some settings**: each of them once, in the order of the keys, in the group of
the section of its key; and each section once, in order, if it has a setting to show. -/
structure Layout.Shows (layout : Layout) (isShown : Setting → Bool) : Prop where
  mem_iff : ∀ k, k ∈ layout.settings ↔ isShown k
  keys_ordered : (layout.settings.map Setting.key).Pairwise (· < ·)
  sections_ordered : (layout.map Prod.fst).Pairwise (· < ·)
  nonempty : ∀ group ∈ layout, group.2 ≠ []
  under : ∀ group ∈ layout, ∀ k ∈ group.2, sectionOf k.key = group.1

/-- The lines for a layout: the name of each section, then its settings. -/
def layoutLines (config : Config) (source : Setting → Source) (layout : Layout) : List String :=
  layout.flatMap fun group =>
    headingLine group.1 :: group.2.map fun k => lineFor k (config.value k) (source k)

variable {isShown : Setting → Bool}

/-- The settings of a section that are shown. -/
def shownIn (isShown : Setting → Bool) (name : String) : List Setting :=
  (Setting.inKeyOrder.filter fun k => sectionOf k.key = name).filter isShown

/-- The layout of the settings that are shown. -/
def layoutOf (isShown : Setting → Bool) : Layout :=
  ((withoutRuns (Setting.inKeyOrder.map fun k => sectionOf k.key)).filter
    fun name => shownIn isShown name ≠ []).map fun name => (name, shownIn isShown name)

/-- A member with nothing to give may be left out. -/
theorem flatMap_filter_of_eq_nil {α β : Type} {p : α → Bool} {f : α → List β}
    (h : ∀ a, p a = false → f a = []) (members : List α) :
    (members.filter p).flatMap f = members.flatMap f := by
  induction members with
  | nil => rfl
  | cons a members ih =>
    cases ha : p a with
    | false => rw [List.filter_cons_of_neg (by simp [ha]), ih, List.flatMap_cons, h a ha,
        List.nil_append]
    | true => rw [List.filter_cons_of_pos ha, List.flatMap_cons, List.flatMap_cons, ih]

theorem pairwise_sections_inKeyOrder :
    (withoutRuns (Setting.inKeyOrder.map fun k => sectionOf k.key)).Pairwise (· < ·) := by
  decide +kernel

/-- The settings of the layout are those that are shown, in the order of the keys. -/
theorem settings_layoutOf (isShown : Setting → Bool) :
    (layoutOf isShown).settings = Setting.inKeyOrder.filter isShown := by
  have hnodup : (withoutRuns (Setting.inKeyOrder.map fun k => sectionOf k.key)).Nodup :=
    pairwise_sections_inKeyOrder.imp ne_of_lt
  rw [Layout.settings, layoutOf, List.flatMap_map, flatMap_filter_of_eq_nil (by simp)]
  conv_rhs => rw [← flatMap_filter_of_nodup hnodup, List.filter_flatMap]
  rfl

theorem shows_layoutOf (isShown : Setting → Bool) : (layoutOf isShown).Shows isShown where
  mem_iff k := by simp [settings_layoutOf, Setting.mem_inKeyOrder k]
  keys_ordered := by
    rw [settings_layoutOf]
    exact Setting.pairwise_key_inKeyOrder.sublist (List.filter_sublist.map Setting.key)
  sections_ordered := by
    rw [layoutOf, List.map_map]
    exact (List.map_id _).symm ▸ pairwise_sections_inKeyOrder.filter _
  nonempty group hgroup := by
    obtain ⟨name, hname, rfl⟩ := List.mem_map.1 hgroup
    simpa using (List.mem_filter.1 hname).2
  under group hgroup k hk := by
    obtain ⟨name, -, rfl⟩ := List.mem_map.1 hgroup
    simpa using (List.mem_filter.1 (List.mem_filter.1 hk).1).2

/-- **The lines for the settings** of a configuration are those of their layout. -/
theorem flatMap_sectionLines
    (hentries : config.provenance.entries =
      Setting.inKeyOrder.map fun k => (k.key, source k)) :
    config.provenance.sections.flatMap (config.sectionLines changedOnly) =
      config.layoutLines source (layoutOf fun k => !changedOnly || !(source k).isBuiltIn) := by
  generalize hshown : (fun k => !changedOnly || !(source k).isBuiltIn) = isShown
  have hsections : config.provenance.sections =
      withoutRuns (Setting.inKeyOrder.map fun k => sectionOf k.key) := by
    rw [sections, hentries, List.map_map]
    rfl
  have hentriesIn (name : String) : config.shownEntries changedOnly name =
      (shownIn isShown name).map fun k => (k.key, source k) := by
    rw [shownEntries, sectionEntries, hentries, List.filter_map, List.filter_map, ← hshown]
    rfl
  have hnone (name : String) (h : decide (shownIn isShown name ≠ []) = false) :
      config.sectionLines changedOnly name = [] := by
    have hnil : shownIn isShown name = [] := by simpa using h
    rw [sectionLines, hentriesIn, hnil]
    rfl
  rw [hsections, layoutLines, layoutOf, List.flatMap_map, ← flatMap_filter_of_eq_nil hnone]
  refine List.flatMap_congr fun name hname => ?_
  have hsome : config.shownEntries changedOnly name ≠ [] := by
    rw [hentriesIn]
    simpa using (List.mem_filter.1 hname).2
  rw [sectionLines_eq hsome, hentriesIn, List.map_map]
  exact congrArg _ (List.map_congr_left fun k _ => settingLine_key config k (source k))

/-! ## The text -/

/-- The lines that show a configuration with tracked settings. -/
theorem showLines_eq
    (hentries : config.provenance.entries =
      Setting.inKeyOrder.map fun k => (k.key, source k)) (changedOnly : Bool) :
    config.showLines changedOnly =
      loadedLines config.loadedFiles ++ ["", "Resolved settings:"] ++
        config.layoutLines source (layoutOf fun k => !changedOnly || !(source k).isBuiltIn) ++
        ["", "Backend root: " ++ config.backendRoot.text] := by
  rw [showLines, flatMap_sectionLines hentries, fileLines_eq, loadedLines]
  simp only [Nat.zero_add]

/-- The keys that are not built in are those of the settings that are not. -/
theorem map_fst_overridden
    (hentries : config.provenance.entries =
      Setting.inKeyOrder.map fun k => (k.key, source k)) :
    config.provenance.overridden.map Prod.fst =
      ((layoutOf fun k => !(source k).isBuiltIn).settings).map Setting.key := by
  rw [overridden, hentries, List.filter_map, List.map_map, settings_layoutOf]
  rfl

end Config

/-- **The commands use nothing of a configuration but the values of its settings.** -/
theorem Command.uses_congr {config other : Config} (h : ∀ k, other.value k = config.value k) :
    other.project = config.project ∧ other.format = config.format ∧ other.quiet = config.quiet ∧
      ∀ tree env path, filesToCheck tree env other path = filesToCheck tree env config path := by
  have hroot : other.root = config.root := h .root
  have hbackend : other.backend = config.backend := h .backend
  have hextensions : other.extensions = config.extensions := h .extensions
  have hincludes : other.includes = config.includes := h .includes
  have hexcludes : other.excludes = config.excludes := h .excludes
  have hproject : other.project = config.project := by
    rw [Config.project, Config.project, hroot, hbackend, hextensions]
  refine ⟨hproject, h .format, h .quiet, fun tree env path => ?_⟩
  rw [filesToCheck, filesToCheck, hproject, hextensions, hincludes, hexcludes]

namespace Config

/-- **A resolved configuration is shown as it is in force.** Each setting has the value and the
source of the highest layer that has it, those that are shown are all of them or those that are not
built in, and the commands use no more of the configuration than the values that are shown. -/
theorem toText_of_resolve {config : Config} {tree : FileTree} {env : Environment}
    {working : FilePath} {flags : Overrides} (h : resolve tree env working flags = .ok config)
    (changedOnly : Bool) :
    ∃ (user project : Option LoadedFile) (source : Setting → Source) (layout : Layout),
      LoadsFrom tree (userFile? tree env) user ∧
      LoadsFrom tree (projectFile? tree working) project ∧
      (∀ k, config.provenance.get? k.key = some (source k) ∧
        highest? (layers working user project env flags) k = some (config.value k, source k)) ∧
      layout.Shows (fun k => !changedOnly || !(source k).isBuiltIn) ∧
      (changedOnly → layout.settings.map Setting.key =
        config.provenance.overridden.map Prod.fst) ∧
      config.loadedFiles = (user.toList ++ project.toList).map Prod.fst ∧
      config.toText changedOnly =
        String.join ((loadedLines config.loadedFiles ++
          ["", "Resolved settings:"] ++ config.layoutLines source layout ++
          ["", "Backend root: " ++ config.backendRoot.text]).map (· ++ "\n")) ∧
      ∀ other : Config, (∀ k, other.value k = config.value k) →
        other.project = config.project ∧ other.format = config.format ∧
          other.quiet = config.quiet ∧ ∀ tree env path,
            Command.filesToCheck tree env other path =
              Command.filesToCheck tree env config path := by
  obtain ⟨user, project, huser, hproject, hlayered, hfiles⟩ := isLayered_of_resolve h
  have htracks := tracksSettings_of_resolve h
  choose source hsource hhighest using hlayered.exists_source
  have hentries := Provenance.entries_eq htracks.isOrdered htracks hsource
  refine ⟨user, project, source, layoutOf fun k => !changedOnly || !(source k).isBuiltIn, huser,
    hproject, fun k => ⟨hsource k, hhighest k⟩, shows_layoutOf _, fun hchanged => ?_, hfiles, ?_,
    fun other hother => Command.uses_congr hother⟩
  · rw [map_fst_overridden hentries, hchanged]
    rfl
  · rw [toText, showLines_eq hentries]

/-- What a file of the user, a file of the project, a variable and a flag are resolved to. -/
def layeredConfig : Config where
  format := .json
  quiet := false
  root := ⟨"/app"⟩
  backend := ⟨"server"⟩
  extensions := ["js", "mjs", "cjs", "jsx", "ts", "mts", "cts", "tsx"]
  includes := ["*.ts"]
  excludes := []
  provenance :=
    ⟨[("defaults.format", .userConfig ⟨"/home/.config/exposer/config.toml"⟩),
      ("defaults.quiet", .environment "EXPOSER_QUIET"),
      ("project.backend_dir", .projectConfig ⟨"/app/.exposer.toml"⟩),
      ("project.root", .projectConfig ⟨"/app/.exposer.toml"⟩), ("resolve.extensions", .builtIn),
      ("targeting.exclude", .builtIn), ("targeting.include", .flag "--include")]⟩
  loadedFiles := [⟨"/home/.config/exposer/config.toml"⟩, ⟨"/app/.exposer.toml"⟩]

theorem toText_layeredConfig :
    resolve layeredTree [("HOME", "/home"), ("EXPOSER_QUIET", "0")] ⟨"/app/src"⟩
        { includes := ["*.ts"] } = .ok layeredConfig ∧
      layeredConfig.toText true =
        "Loaded config files:\n  1. /home/.config/exposer/config.toml\n" ++
        "  2. /app/.exposer.toml\n\n" ++
        "Resolved settings:\n  [defaults]\n" ++
        "    defaults.format: json <- user config (/home/.config/exposer/config.toml)\n" ++
        "    defaults.quiet: false <- env var (EXPOSER_QUIET)\n  [project]\n" ++
        "    project.backend_dir: server <- project config (/app/.exposer.toml)\n" ++
        "    project.root: /app <- project config (/app/.exposer.toml)\n  [targeting]\n" ++
        "    targeting.include: *.ts <- CLI flag (--include)\n\nBackend root: /app/server\n" ∧
      ∃ (source : Setting → Source) (layout : Layout),
        layout.Shows (fun k => !(source k).isBuiltIn) ∧
          layout.settings.map Setting.key =
            ["defaults.format", "defaults.quiet", "project.backend_dir", "project.root",
              "targeting.include"] := by
  have hresolve : resolve layeredTree [("HOME", "/home"), ("EXPOSER_QUIET", "0")] ⟨"/app/src"⟩
      { includes := ["*.ts"] } = .ok layeredConfig := by
    decide +kernel
  obtain ⟨-, -, source, layout, -, -, -, hshows, hkeys, -⟩ := toText_of_resolve hresolve true
  exact ⟨hresolve, by decide +kernel, source, layout, hshows, hkeys rfl⟩

end Config

end RemoteImports
