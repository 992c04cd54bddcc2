import RemoteImports.Config.Resolve
import RemoteImports.Proofs.Outcome

/-!
# Layers of a configuration

A configuration has a value for each setting and, under the key of the setting, the source of the
value (`Config.standing`). A layer gives some of the settings. Put over a configuration it decides
on those, value and source together, and on no others (`standing_overlay`). So in a configuration
that is put together from layers every setting is the one of the highest layer that gives it
(`IsLayered.overlay`).
-/

namespace RemoteImports

/-- A setting of a run. -/
inductive Setting
  | format
  | quiet
  | root
  | backend
  | extensions
  | includes
  | excludes
  deriving DecidableEq

namespace Setting

/-- All settings. -/
def all : List Setting := [format, quiet, root, backend, extensions, includes, excludes]

/-- The dotted key of a setting. -/
def key : Setting → String
  | format => "defaults.format"
  | quiet => "defaults.quiet"
  | root => "project.root"
  | backend => "project.backend_dir"
  | extensions => "resolve.extensions"
  | includes => "targeting.include"
  | excludes => "targeting.exclude"

/-- What a setting can be. -/
abbrev Value : Setting → Type
  | format => OutputFormat
  | quiet => Bool
  | root | backend => FilePath
  | extensions | includes | excludes => List String

theorem mem_all (k : Setting) : k ∈ all := by cases k <;> decide

theorem nodup_all : all.Nodup := by decide

theorem key_injective {k k' : Setting} (h : k.key = k'.key) : k = k' := by
  revert h
  cases k <;> cases k' <;> decide

end Setting

/-! ## Sources by key -/

namespace Provenance

theorem lookup_setEntry (key : String) (source : Source) (entries : List (String × Source)) :
    (setEntry key source entries).lookup key = some source := by
  induction entries with
  | nil => simp [setEntry]
  | cons entry rest ih =>
    obtain ⟨other, s⟩ := entry
    rw [setEntry]
    split
    · exact List.lookup_cons_self
    split
    · exact List.lookup_cons_self
    · rename_i hne
      rw [List.lookup_cons, beq_eq_false_iff_ne.2 hne]
      exact ih

theorem lookup_setEntry_of_ne {key key' : String} (h : key' ≠ key) (source : Source)
    (entries : List (String × Source)) :
    (setEntry key source entries).lookup key' = entries.lookup key' := by
  have hskip (rest : List (String × Source)) :
      ((key, source) :: rest).lookup key' = rest.lookup key' := by
    rw [List.lookup_cons, beq_eq_false_iff_ne.2 h]
  induction entries with
  | nil => exact hskip []
  | cons entry rest ih =>
    obtain ⟨other, s⟩ := entry
    rw [setEntry]
    split
    · exact hskip _
    split
    · rename_i heq
      subst heq
      rw [hskip, List.lookup_cons, beq_eq_false_iff_ne.2 h]
    · rw [List.lookup_cons, List.lookup_cons, ih]

@[simp] theorem get?_set_self (p : Provenance) (key : String) (source : Source) :
    (p.set key source).get? key = some source :=
  lookup_setEntry key source p.entries

theorem get?_set_of_ne (p : Provenance) {key key' : String} (h : key' ≠ key) (source : Source) :
    (p.set key source).get? key' = p.get? key' :=
  lookup_setEntry_of_ne h source p.entries

end Provenance

namespace Config

/-! ## Settings of a configuration -/

/-- The value of a setting. -/
def value (config : Config) : (k : Setting) → k.Value
  | .format => config.format
  | .quiet => config.quiet
  | .root => config.root
  | .backend => config.backend
  | .extensions => config.extensions
  | .includes => config.includes
  | .excludes => config.excludes

/-- A configuration with another value of a setting. -/
def withValue (config : Config) : (k : Setting) → k.Value → Config
  | .format, format => { config with format }
  | .quiet, quiet => { config with quiet }
  | .root, root => { config with root }
  | .backend, backend => { config with backend }
  | .extensions, extensions => { config with extensions }
  | .includes, includes => { config with includes }
  | .excludes, excludes => { config with excludes }

/-- The value of a setting with its source. -/
def standing (config : Config) (k : Setting) : Option (k.Value × Source) :=
  (config.provenance.get? k.key).map fun source => (config.value k, source)

/-- The settings that a layer gives, each with its source. -/
abbrev Layer : Type := (k : Setting) → Option (k.Value × Source)

/-- What the highest of some layers gives that has the setting. The highest layer comes first. -/
def highest? (layers : List Layer) (k : Setting) : Option (k.Value × Source) :=
  layers.findSome? fun layer => layer k

/-- Each setting of a configuration, with its source, is that of the highest layer that has it. -/
def IsLayered (config : Config) (layers : List Layer) : Prop :=
  ∀ k, config.standing k = highest? layers k

/-- A configuration with a setting of a layer, if the layer has it. -/
def give (config : Config) (k : Setting) : Option (k.Value × Source) → Config
  | some (value, source) => (config.withValue k value).noted k.key source
  | none => config

/-- A configuration with a layer over it. -/
def overlay (config : Config) (layer : Layer) : Config :=
  Setting.all.foldl (fun config k => config.give k (layer k)) config

variable {config config' : Config} {layer : Layer} {layers : List Layer} {k k' : Setting}

theorem standing_eq_some_iff {value : k.Value} {source : Source} :
    config.standing k = some (value, source) ↔
      config.value k = value ∧ config.provenance.get? k.key = some source := by
  rw [standing, Option.map_eq_some_iff]
  constructor
  · rintro ⟨source, hsource, h⟩
    cases h
    exact ⟨rfl, hsource⟩
  · rintro ⟨rfl, hsource⟩
    exact ⟨source, hsource, rfl⟩

@[simp] theorem value_withValue (config : Config) (k : Setting) (value : k.Value) :
    (config.withValue k value).value k = value := by
  cases k <;> rfl

theorem value_withValue_of_ne (config : Config) (h : k' ≠ k) (value : k.Value) :
    (config.withValue k value).value k' = config.value k' := by
  cases k <;> cases k' <;> first | rfl | exact absurd rfl h

@[simp] theorem provenance_withValue (config : Config) (k : Setting) (value : k.Value) :
    (config.withValue k value).provenance = config.provenance := by
  cases k <;> rfl

theorem value_noted (config : Config) (key : String) (source : Source) (k : Setting) :
    (config.noted key source).value k = config.value k := by
  cases k <;> rfl

/-! ## Putting layers over one another -/

theorem standing_give (config : Config) (k : Setting) (given : Option (k.Value × Source)) :
    (config.give k given).standing k = given.or (config.standing k) := by
  cases given with
  | none => rfl
  | some given =>
    obtain ⟨value, source⟩ := given
    refine standing_eq_some_iff.2 ⟨?_, ?_⟩
    · rw [give, value_noted, value_withValue]
    · simp [give, noted]

/-- Giving one setting leaves the others alone, and their sources. -/
theorem standing_give_of_ne (config : Config) (h : k' ≠ k) (given : Option (k.Value × Source)) :
    (config.give k given).standing k' = config.standing k' := by
  cases given with
  | none => rfl
  | some given =>
    obtain ⟨value, source⟩ := given
    have hkey : k'.key ≠ k.key := fun he => h (Setting.key_injective he)
    rw [standing, standing, give, value_noted, value_withValue_of_ne config h, noted,
      Provenance.get?_set_of_ne _ hkey, provenance_withValue]

theorem standing_foldl_give {ks : List Setting} (hks : ks.Nodup) (config : Config) (layer : Layer)
    (k : Setting) :
    (ks.foldl (fun config k => config.give k (layer k)) config).standing k =
      if k ∈ ks then (layer k).or (config.standing k) else config.standing k := by
  induction ks generalizing config with
  | nil => simp
  | cons first rest ih =>
    obtain ⟨hfirst, hrest⟩ := List.nodup_cons.1 hks
    rw [List.foldl_cons, ih hrest]
    by_cases hk : k = first
    · subst hk
      rw [if_neg hfirst, if_pos List.mem_cons_self, standing_give]
    · rw [standing_give_of_ne config hk]
      simp only [List.mem_cons, hk, false_or]

/-- **A layer decides on the settings that it gives**, value and source together, and on no
others. -/
theorem standing_overlay (config : Config) (layer : Layer) (k : Setting) :
    (config.overlay layer).standing k = (layer k).or (config.standing k) := by
  rw [overlay, standing_foldl_give Setting.nodup_all, if_pos (Setting.mem_all k)]

theorem highest?_cons (layer : Layer) (layers : List Layer) (k : Setting) :
    highest? (layer :: layers) k = (layer k).or (highest? layers k) := by
  rw [highest?, List.findSome?_cons]
  cases layer k <;> rfl

/-- **One more layer** on top of the others. -/
theorem IsLayered.overlay (h : config.IsLayered layers) (layer : Layer) :
    (config.overlay layer).IsLayered (layer :: layers) := by
  intro k
  rw [standing_overlay, h k, highest?_cons]

/-! ## One setting at a time -/

/-- A setting taken from a layer is one that the layer gives. -/
theorem withSetting_eq_give {α : Type} {key : String} {source : Source} {given : Option α}
    {set : Config → α → Config} {valueOf : α → k.Value} (hconfig : config = config')
    (hkey : key = k.key) (hset : ∀ a, set config a = config.withValue k (valueOf a))
    (hlayer : layer k = given.map fun a => (valueOf a, source)) :
    config.withSetting key source given set = config'.give k (layer k) := by
  subst hconfig hkey
  rw [hlayer]
  cases given with
  | none => rfl
  | some a => exact congrArg (·.noted k.key source) (hset a)

end Config

end RemoteImports
