import RemoteImports.Config.Resolve
import RemoteImports.Proofs.Outcome

/-!
# The root of a configuration

The root of a project is a setting of its own: no other setting depends on it, so two resolutions
that differ only in where the root comes from fail alike or differ only in the root
(`sameButRoot_resolve`). The last layer that gives a root decides on it (`root_resolve`).
-/

namespace RemoteImports

/-- Two environments have the same variables, except perhaps for that of the root. -/
def Environment.SameButRoot (env env' : Environment) : Prop :=
  ∀ name, name ≠ "EXPOSER_ROOT" → env.lookup name = env'.lookup name

theorem Environment.sameButRoot_cons (env : Environment) (root : OsString) :
    SameButRoot env (("EXPOSER_ROOT", root) :: env) := by
  intro name hname
  rw [List.lookup_cons, beq_eq_false_iff_ne.2 hname]

theorem Environment.text?_cons_self (env : Environment) (name : String) (value : OsString) :
    Environment.text? ((name, value) :: env) name = value.text? := by
  rw [Environment.text?, List.lookup_cons_self, Option.bind_some]

theorem Environment.SameButRoot.text?_eq {env env' : Environment} (h : env.SameButRoot env')
    (name : String) (hname : name ≠ "EXPOSER_ROOT") : env.text? name = env'.text? name := by
  rw [Environment.text?, Environment.text?, h name hname]

namespace Config

variable {c c' : Config} {tree : FileTree} {env env' : Environment} {working : FilePath}
  {flags : Overrides}

/-! ## All settings but the root -/

/-- Two configurations have the same settings, except perhaps for the root. Where the settings come
from does not matter. -/
structure SameButRoot (c c' : Config) : Prop where
  format : c.format = c'.format
  quiet : c.quiet = c'.quiet
  backend : c.backend = c'.backend
  extensions : c.extensions = c'.extensions
  includes : c.includes = c'.includes
  excludes : c.excludes = c'.excludes

namespace SameButRoot

theorem refl (c : Config) : SameButRoot c c := ⟨rfl, rfl, rfl, rfl, rfl, rfl⟩

/-- A setting with the same value keeps two configurations alike. -/
theorem withSetting {α : Type} {key : String} {source : Source} {value : Option α}
    {set : Config → α → Config} (h : SameButRoot c c')
    (hset : ∀ a, SameButRoot c c' → SameButRoot (set c a) (set c' a)) :
    SameButRoot (c.withSetting key source value set) (c'.withSetting key source value set) := by
  cases value with
  | none => exact h
  | some a => exact { hset a h with }

/-- Roots of any values do. -/
theorem withRoot {α β : Type} {key : String} {source : Source} {value : Option α}
    {value' : Option β} {rootOf : α → FilePath} {rootOf' : β → FilePath} (h : SameButRoot c c') :
    SameButRoot (c.withSetting key source value fun c a => { c with root := rootOf a })
      (c'.withSetting key source value' fun c b => { c with root := rootOf' b }) := by
  cases value <;> cases value' <;> exact { h with }

theorem withOverrides (h : SameButRoot c c') (flags : Overrides) (root : Option FilePath) :
    SameButRoot (c.withOverrides flags) (c'.withOverrides { flags with root }) := by
  simp only [Config.withOverrides]
  refine withSetting ?_ fun _ h => { h with excludes := rfl }
  refine withSetting ?_ fun _ h => { h with includes := rfl }
  refine withSetting ?_ fun _ h => { h with backend := rfl }
  refine withRoot ?_
  refine withSetting ?_ fun _ h => { h with quiet := rfl }
  exact h.withSetting fun _ h => { h with format := rfl }

theorem withEnvironment (h : SameButRoot c c') (henv : env.SameButRoot env') :
    SameOutcome Eq SameButRoot (c.withEnvironment working env)
      (c'.withEnvironment working env') := by
  simp only [Config.withEnvironment, henv.text?_eq "EXPOSER_FORMAT" (by decide),
    henv.text?_eq "EXPOSER_QUIET" (by decide), henv.text?_eq "EXPOSER_BACKEND_DIR" (by decide),
    henv.text?_eq "EXPOSER_EXTENSIONS" (by decide), henv.text?_eq "EXPOSER_INCLUDE" (by decide),
    henv.text?_eq "EXPOSER_EXCLUDE" (by decide)]
  refine .bind_same _ fun format => .ok ?_
  refine withSetting ?_ fun _ h => { h with excludes := rfl }
  refine withSetting ?_ fun _ h => { h with includes := rfl }
  refine withSetting ?_ fun _ h => { h with extensions := rfl }
  refine withSetting ?_ fun _ h => { h with backend := rfl }
  refine withRoot ?_
  refine withSetting ?_ fun _ h => { h with quiet := rfl }
  exact h.withSetting fun _ h => { h with format := rfl }

end SameButRoot

theorem userFile?_congr (henv : env.SameButRoot env') :
    userFile? tree env = userFile? tree env' := by
  simp only [userFile?, userDirectory?, home?, henv "XDG_CONFIG_HOME" (by decide),
    henv "HOME" (by decide)]

/-- **The root is a setting of its own.** Resolutions that differ in where the root comes from fail
alike, or their results differ at most in the root. -/
theorem sameButRoot_resolve (henv : env.SameButRoot env') (root : Option FilePath) :
    SameOutcome Eq SameButRoot (resolve tree env working flags)
      (resolve tree env' working { flags with root }) := by
  unfold resolve withUserFile
  rw [userFile?_congr henv]
  refine .bind_same _ fun user => .bind_same _ fun project => ?_
  exact ((SameButRoot.refl project).withEnvironment henv).bind fun _ _ h =>
    .ok (h.withOverrides flags root)

/-! ## The root -/

theorem root_withSetting {α : Type} {key : String} {source : Source} {value : Option α}
    {set : Config → α → Config} (hset : ∀ a, (set c a).root = c.root) :
    (c.withSetting key source value set).root = c.root := by
  cases value with
  | none => rfl
  | some a => exact hset a

theorem root_withRoot {α : Type} {key : String} {source : Source} {value : Option α}
    {rootOf : α → FilePath} :
    (c.withSetting key source value fun c a => { c with root := rootOf a }).root =
      (value.map rootOf).getD c.root := by
  cases value <;> rfl

theorem root_withOverrides (c : Config) (flags : Overrides) :
    (c.withOverrides flags).root = flags.root.getD c.root := by
  simp [withOverrides, root_withSetting, root_withRoot]

theorem root_withEnvironment (h : c.withEnvironment working env = .ok c') :
    c'.root =
      ((env.text? "EXPOSER_ROOT").map fun root : String => working.join ⟨root⟩).getD c.root := by
  obtain ⟨format, -, h⟩ := bind_eq_ok_iff.1 h
  cases h
  simp [root_withSetting, root_withRoot]

theorem root_withFile {s : FileSettings} {file : FilePath} {source : Source}
    (h : c.withFile s file source = .ok c') :
    c'.root =
      (s.root.map fun root : String => (file.parent?.getD ⟨"."⟩).join ⟨root⟩).getD c.root := by
  obtain ⟨format, -, h⟩ := bind_eq_ok_iff.1 h
  cases h
  simp [root_withSetting, root_withRoot]

/-- The directory of the project's file is the root, unless the file names another one. -/
theorem root_withProjectFile {file : FilePath} (h : c.withProjectFile tree working = .ok c')
    (hfile : projectFile? tree working = some file) :
    ∃ s, readFile tree .project file = .ok s ∧
      c'.root = (s.root.map fun root : String => (file.parent?.getD ⟨"."⟩).join ⟨root⟩).getD
        (file.parent?.getD c.root) := by
  simp only [withProjectFile, hfile] at h
  obtain ⟨s, hs, h⟩ := bind_eq_ok_iff.1 h
  obtain ⟨loaded, hloaded, h⟩ := bind_eq_ok_iff.1 h
  cases h
  refine ⟨s, hs, (root_withFile hloaded).trans ?_⟩
  rw [root_withRoot, Option.map_id']

/-- **The last layer with a root decides**: the flag before the variable, the variable before the
files. -/
theorem root_resolve (h : resolve tree env working flags = .ok c) :
    ∃ user project, (builtIn working).withUserFile tree env = .ok user ∧
      user.withProjectFile tree working = .ok project ∧
      c.root = flags.root.getD
        (((env.text? "EXPOSER_ROOT").map fun root : String => working.join ⟨root⟩).getD
          project.root) := by
  obtain ⟨user, huser, h⟩ := bind_eq_ok_iff.1 h
  obtain ⟨project, hproject, h⟩ := bind_eq_ok_iff.1 h
  obtain ⟨settled, hsettled, h⟩ := bind_eq_ok_iff.1 h
  cases h
  refine ⟨user, project, huser, hproject, ?_⟩
  rw [root_withOverrides, root_withEnvironment hsettled]

/-- So environments that name the same root lead to the same one. -/
theorem root_resolve_congr (henv : env.SameButRoot env')
    (hroot : env.text? "EXPOSER_ROOT" = env'.text? "EXPOSER_ROOT")
    (h : resolve tree env working flags = .ok c) (h' : resolve tree env' working flags = .ok c') :
    c.root = c'.root := by
  obtain ⟨user, project, huser, hproject, hc⟩ := root_resolve h
  obtain ⟨user', project', huser', hproject', hc'⟩ := root_resolve h'
  rw [withUserFile, ← userFile?_congr henv, ← withUserFile, huser] at huser'
  cases huser'
  cases hproject.symm.trans hproject'
  rw [hc, hc', hroot]

end Config

end RemoteImports
