import RemoteImports.Module.Basic
import RemoteImports.Failure

/-!
# Exposed functions of a module

The functions that a module offers to callers from outside: they carry the exposure tag and are
exported, either in place or by a binding of their name to itself on the surface of the module. A
tagged function without an export is a fault of the module.
-/

namespace RemoteImports

/-- The names that a statement puts onto the surface of its module as themselves. -/
def Statement.selfBound (s : Statement) : List String :=
  match s.kind with
  | .surface bindings => (bindings.filter SurfaceBinding.isSelf).map SurfaceBinding.bound
  | _ => []

namespace Module

/-- The names that a module puts onto its surface as themselves. -/
def selfBound (m : Module) : List String := m.statements.flatMap Statement.selfBound

/-- Whether a name is asked for; without a request every name is. -/
def isRequested (requested : Option (List String)) (name : String) : Bool :=
  match requested with
  | none => true
  | some names => names.contains name

/-- The exposed functions among some statements of a module at a path, whose surface is given. Only
tagged functions that are asked for need to be on the surface. -/
def exposedAmong (path : FilePath) (surface : List String) (requested : Option (List String)) :
    List Statement → Except Failure (List String)
  | [] => .ok []
  | s :: rest =>
    match s.kind with
    | .function ⟨name, true⟩ =>
      if isRequested requested name then
        if surface.contains name then
          (exposedAmong path surface requested rest).map (name :: ·)
        else .error (.exposedNotExported name path)
      else exposedAmong path surface requested rest
    | .exportFunction ⟨name, true⟩ =>
      (exposedAmong path surface requested rest).map (name :: ·)
    | _ => exposedAmong path surface requested rest

/-- The exposed functions of a module in the order of their statements. -/
def exposed (m : Module) (requested : Option (List String)) : Except Failure (List String) :=
  exposedAmong m.path m.selfBound requested m.statements

end Module

end RemoteImports
