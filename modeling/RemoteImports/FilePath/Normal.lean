import RemoteImports.FilePath

/-!
# Normal paths

A path is brought to normal form without a look at the file system: dots vanish, and a step to the
parent cancels the name before it. At the top of the file system a step to the parent does nothing;
at the start of a relative path it is kept.
-/

namespace RemoteImports.FilePath

open Component

/-- One more component after a normal path, whose components are given last first. -/
def stepNormal (done : List Component) : Component → List Component
  | here => done
  | up =>
    match done with
    | name _ :: rest => rest
    | root :: _ => done
    | _ => up :: done
  | step => step :: done

/-- The normal form of a list of components. -/
def normalComponents (steps : List Component) : List Component :=
  (steps.foldl stepNormal []).reverse

/-- The normal form of a path. -/
def normalize (p : FilePath) : FilePath := ofComponents (normalComponents p.components)

/-- The path that an import specifier names, seen from the importing file. -/
def resolveFrom (importer : FilePath) (specifier : String) : FilePath :=
  ((importer.parent?.getD ⟨⟨[]⟩⟩).join ⟨specifier⟩).normalize

/-- The path of a target inside a directory: what is shown of its components, with slashes between
them. A target that is not strictly below the directory has none. Both paths are meant to be
normal. -/
def relativeTo (dir target : FilePath) : Option String :=
  match dir.below? target with
  | none | some [] => none
  | some steps => some ("/".intercalate (steps.map (·.written.text)))

end RemoteImports.FilePath
