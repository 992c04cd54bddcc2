import RemoteImports.Proofs.Config.Resolution
import RemoteImports.Proofs.FileTree.Places

/-!
# The configuration of a part of a project

A directory of a project has the configuration of the whole project (`resolve_part`): the search for
the file of the project passes over the directories on the way, which hold none
(`projectFile?_append`), and after that file nothing is left of the directory that the search has
started from.
-/

namespace RemoteImports

open FilePath

/-- None of the directories on a way down from a place holds a configuration file for a project. -/
def FileTree.HoldsNoneOnWay (tree : FileTree) (place down : Location) : Prop :=
  ∀ names : Location, names ≠ [] → names <+: down →
    ¬ tree.HoldsProjectFile (Location.path (place ++ names))

namespace Config

variable {tree : FileTree} {env : Environment} {flags : Overrides} {place down : Location}
  {s : OsString} {c c' : Config} {working working' file p : FilePath}

/-! ## The file of the project -/

theorem directoriesAbove_path (h : ∀ t ∈ place ++ [s], IsEntryName t) :
    directoriesAbove (Location.path (place ++ [s])) =
      Location.path (place ++ [s]) :: directoriesAbove place.path := by
  have hplace : ∀ t ∈ place, IsEntryName t := fun t ht => h t (List.mem_append_left _ ht)
  rw [directoriesAbove, directoriesAbove, Location.components_path h,
    Location.components_path hplace, directoriesWithin, Location.parent?_path h]
  simp

/-- A directory that holds a file for a project is the nearest one to itself. -/
theorem projectFile?_of_holds (h : tree.HoldsProjectFile p) :
    projectFile? tree p = some (p.child projectFileName) := by
  obtain ⟨above, habove⟩ : ∃ above, directoriesAbove p = p :: above := by
    rw [directoriesAbove, directoriesWithin]
    split
    · exact ⟨[], rfl⟩
    · exact ⟨_, rfl⟩
  rw [projectFile?, habove, List.map_cons]
  exact List.find?_cons_of_pos h

/-- **The search passes over directories** that hold none. -/
theorem projectFile?_append (hnames : ∀ t ∈ place ++ down, IsEntryName t)
    (hnone : tree.HoldsNoneOnWay place down) :
    projectFile? tree (Location.path (place ++ down)) = projectFile? tree place.path := by
  induction down using List.reverseRecOn with
  | nil => rw [List.append_nil]
  | append_singleton down s ih =>
    have hlast : ¬ tree.contains
        ((Location.path (place ++ (down ++ [s]))).child projectFileName) :=
      hnone _ (by simp) List.prefix_rfl
    rw [← List.append_assoc] at hnames hlast ⊢
    rw [projectFile?, directoriesAbove_path hnames, List.map_cons,
      List.find?_cons_of_neg hlast]
    exact ih (fun t ht => hnames t (List.mem_append_left _ ht)) fun names hne hinitial =>
      hnone names hne (hinitial.trans (List.prefix_append down [s]))

/-! ## Configurations up to the root -/

/-- The second configuration is the first one with another root. -/
def UpToRoot (c c' : Config) : Prop := c' = c.withValue .root c'.root

theorem UpToRoot.refl (c : Config) : UpToRoot c c := rfl

theorem UpToRoot.give (h : UpToRoot c c') (k : Setting) (given : Option (k.Value × Source)) :
    UpToRoot (c.give k given) (c'.give k given) := by
  rw [UpToRoot] at h ⊢
  rw [h]
  cases given with
  | none => rfl
  | some given => cases k <;> rfl

theorem UpToRoot.overlay (h : UpToRoot c c') (layer : Layer) :
    UpToRoot (c.overlay layer) (c'.overlay layer) := by
  rw [overlay_eq, overlay_eq]
  exact ((((((h.give _ _).give _ _).give _ _).give _ _).give _ _).give _ _).give _ _

theorem UpToRoot.withLoaded (h : UpToRoot c c') (file : FilePath) :
    UpToRoot (c.withLoaded file) (c'.withLoaded file) :=
  congrArg (Config.withLoaded · file) h

/-- Different roots from one source are no other difference. -/
theorem UpToRoot.give_roots (h : UpToRoot c c') (root root' : FilePath) (source : Source) :
    UpToRoot (c.give .root (some (root, source))) (c'.give .root (some (root', source))) := by
  rw [UpToRoot] at h ⊢
  rw [h]
  rfl

/-- A root that is given makes up for the difference. -/
theorem UpToRoot.give_root (h : UpToRoot c c') (root : FilePath) (source : Source) :
    c.give .root (some (root, source)) = c'.give .root (some (root, source)) := by
  rw [h]
  rfl

/-! ## The resolution -/

theorem UpToRoot.withUserFile (h : UpToRoot c c') (tree : FileTree) (env : Environment) :
    SameOutcome Eq UpToRoot (c.withUserFile tree env) (c'.withUserFile tree env) := by
  cases hfile : userFile? tree env with
  | none =>
    rw [Config.withUserFile, Config.withUserFile, hfile]
    exact .ok h
  | some file =>
    rw [withUserFile_of_file c hfile, withUserFile_of_file c' hfile]
    refine .bind_same _ fun s => ?_
    exact (SameOutcome.refl (fun _ => rfl) (fun _ => rfl) (formatOf? s.format)).map
      fun _ _ _ => (h.overlay _).withLoaded file

/-- The directory of the file of a project is the root from there on. -/
theorem UpToRoot.withProjectFile_eq (h : UpToRoot c c')
    (hfile : projectFile? tree working = some file)
    (hfile' : projectFile? tree working' = some file) (hparent : file.parent? = some p) :
    c.withProjectFile tree working = c'.withProjectFile tree working' := by
  rw [withProjectFile_of_file c hfile, withProjectFile_of_file c' hfile', hparent, Option.map_some,
    h.give_root]

/-- Only the variable for the root can mean something else in another directory. -/
theorem UpToRoot.overlay_environment (h : UpToRoot c c') (working working' : FilePath)
    (env : Environment) :
    UpToRoot (c.overlay (environmentLayer working env))
      (c'.overlay (environmentLayer working' env)) := by
  have hroot {c c' : Config} (h : UpToRoot c c') :
      UpToRoot (c.give .root (environmentLayer working env .root))
        (c'.give .root (environmentLayer working' env .root)) := by
    rw [environmentLayer, environmentLayer]
    cases env.text? Setting.root.variable with
    | none => exact h
    | some text => exact h.give_roots _ _ _
  rw [overlay_eq, overlay_eq]
  exact ((((hroot ((h.give _ _).give _ _)).give _ _).give _ _).give _ _).give _ _

/-- And it does so only if it holds a relative path. -/
theorem environmentLayer_eq
    (henv : ∀ root, env.text? "EXPOSER_ROOT" = some root → isAbsolute ⟨root⟩) :
    environmentLayer working env = environmentLayer working' env := by
  funext k
  cases k with
  | root =>
    rw [environmentLayer, environmentLayer]
    cases hroot : env.text? Setting.root.variable with
    | none => rfl
    | some root => simp only [Option.bind_some, ofText, join_of_isAbsolute _ (henv root hroot)]
  | format | quiet | backend | extensions | includes | excludes => rfl

/-- A flag for the root makes up for the difference. -/
theorem UpToRoot.overlay_flags (h : UpToRoot c c') {root : FilePath}
    (hroot : flags.root = some root) :
    c.overlay (flagLayer flags) = c'.overlay (flagLayer flags) := by
  have hgive : flagLayer flags .root = some (root, .flag "--root") := by
    rw [flagLayer, hroot]
    rfl
  rw [overlay_eq, overlay_eq, hgive, ((h.give _ _).give _ _).give_root]

/-- **A part of a project is configured like the whole**, if the project has a file, none of the
directories on the way has one of its own, and no variable gives the root by a relative path. -/
theorem resolve_part (hnames : ∀ t ∈ place ++ down, IsEntryName t)
    (hholds : tree.HoldsProjectFile place.path) (hnone : tree.HoldsNoneOnWay place down)
    (henv : flags.root = none →
      ∀ root, env.text? "EXPOSER_ROOT" = some root → isAbsolute ⟨root⟩) :
    resolve tree env (Location.path (place ++ down)) flags =
      resolve tree env place.path flags := by
  have hplace : ∀ t ∈ place, IsEntryName t := fun t ht => hnames t (List.mem_append_left _ ht)
  have hwhole := projectFile?_of_holds hholds
  have hpart := (projectFile?_append hnames hnone).trans hwhole
  have hparent : (place.path.child projectFileName).parent? = some place.path := by
    rw [Location.child_path hplace isEntryName_projectFileName]
    exact Location.parent?_path
      (List.forall_mem_append.2 ⟨hplace, by simpa using isEntryName_projectFileName⟩)
  have hbuiltIn : UpToRoot (builtIn (Location.path (place ++ down))) (builtIn place.path) := rfl
  unfold resolve
  refine (hbuiltIn.withUserFile tree env).bind_eq fun c c' _ _ h => ?_
  rw [h.withProjectFile_eq hpart hwhole hparent]
  refine congrArg _ (funext fun c => ?_)
  simp only [withEnvironment_eq, withOverrides_eq]
  cases formatOf? (env.text? "EXPOSER_FORMAT") with
  | error fault => rfl
  | ok format =>
    refine congrArg Except.ok ?_
    cases hroot : flags.root with
    | none => rw [environmentLayer_eq (henv hroot)]
    | some root => exact ((UpToRoot.refl c).overlay_environment _ _ env).overlay_flags hroot

end Config

end RemoteImports
