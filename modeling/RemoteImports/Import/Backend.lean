import RemoteImports.FilePath.Normal
import RemoteImports.Module.Statement

/-!
# Imports from the backend

An import statement is an import from the backend if it names its bindings, binds at least one
value, and its relative specifier leads strictly below the backend root. Imports of a default export
or of a whole module are none: there is no proxy for them.
-/

namespace RemoteImports

/-- An import of backend functions. -/
structure BackendImport where
  /-- The place of the import among the statements of its module. -/
  position : Nat
  line : Nat
  /-- The specifier as written. -/
  specifier : String
  /-- The names that have a value at run time. -/
  bindings : List Binding
  /-- The names that are types only. -/
  typeBindings : List Binding
  /-- The absolute path that the specifier leads to. -/
  target : FilePath
  /-- The target seen from the backend root. -/
  filename : String
  deriving DecidableEq, Inhabited, Repr

/-- The members of a list, each where it stands first. -/
def distinct : List String → List String
  | [] => []
  | name :: rest => name :: (distinct rest).filter (· ≠ name)

namespace BackendImport

/-- The names that an import asks its target for, each once. -/
def requested (site : BackendImport) : List String := distinct (site.bindings.map Binding.imported)

/-- The binding that a specifier makes at run time, if it is a named value. -/
def valueBinding? : ImportSpecifier → Option Binding
  | .named binding false => some binding
  | _ => none

/-- The binding of a named type. -/
def typeBinding? : ImportSpecifier → Option Binding
  | .named binding true => some binding
  | _ => none

/-- Whether a specifier names an export. -/
def isNamed : ImportSpecifier → Bool
  | .named _ _ => true
  | _ => false

/-- Whether an import statement is one that a proxy can stand for, wherever it leads. -/
def isEligible (decl : ImportDecl) : Bool :=
  decl.source.toList.head? = some '.' && !decl.typeOnly && decl.specifiers.all isNamed &&
    decl.specifiers.any fun specifier => (valueBinding? specifier).isSome

/-- The import from the backend that a statement of an importing file is. -/
def ofStatement? (importer backendRoot : FilePath) (position : Nat) (s : Statement) :
    Option BackendImport :=
  match s.kind with
  | .importing decl =>
    if isEligible decl then
      let target := importer.resolveFrom decl.source
      (backendRoot.relativeTo target).map fun filename =>
        { position, line := s.line, specifier := decl.source
          bindings := decl.specifiers.filterMap valueBinding?
          typeBindings := decl.specifiers.filterMap typeBinding?
          target, filename }
    else none
  | _ => none

/-- The imports from the backend among some statements, the first of which stands at a position. -/
def among (importer backendRoot : FilePath) : Nat → List Statement → List BackendImport
  | _, [] => []
  | position, s :: rest =>
    match ofStatement? importer backendRoot position s with
    | some site => site :: among importer backendRoot (position + 1) rest
    | none => among importer backendRoot (position + 1) rest

end BackendImport

end RemoteImports
