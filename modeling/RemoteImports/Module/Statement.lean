import RemoteImports.Script.Dialect

/-!
# Statements of a module

What the tool knows about a top-level statement: its text, the layout before it, its line, and its
kind as far as imports and exposed functions are concerned.
-/

namespace RemoteImports

/-- A name of another module and the local name it is bound to. -/
structure Binding where
  imported : String
  bound : String
  deriving DecidableEq, Inhabited, Repr

/-- One specifier of an import statement. -/
inductive ImportSpecifier
  /-- The default export of the module. -/
  | default (bound : String)
  /-- The module as a whole. -/
  | whole (bound : String)
  /-- A named export; a type-only one has no value at run time. -/
  | named (binding : Binding) (typeOnly : Bool)
  deriving DecidableEq, Inhabited, Repr

/-- The local name that a specifier binds. -/
def ImportSpecifier.bound : ImportSpecifier → String
  | default name => name
  | whole name => name
  | named binding _ => binding.bound

/-- An import statement. -/
structure ImportDecl where
  /-- The module specifier as written, without its quotes. -/
  source : String
  /-- Whether the statement as a whole imports types only. -/
  typeOnly : Bool
  specifiers : List ImportSpecifier
  deriving DecidableEq, Inhabited, Repr

/-- A function declared at the top level. -/
structure FunctionDecl where
  name : String
  /-- Whether a comment marks the function as callable from outside. -/
  exposed : Bool
  deriving DecidableEq, Inhabited, Repr

/-- A name on the surface of a module and the local name it stands for. -/
structure SurfaceBinding where
  exported : String
  bound : String
  deriving DecidableEq, Inhabited, Repr

/-- Whether a name is exported as itself. -/
def SurfaceBinding.isSelf (binding : SurfaceBinding) : Bool := binding.exported == binding.bound

/-- A declaration that binds names to remote functions of a backend file. -/
structure Proxy where
  bindings : List Binding
  /-- The remote functions, each once. -/
  methods : List String
  /-- The backend file, relative to the backend root. -/
  filename : String
  deriving DecidableEq, Inhabited, Repr

/-- The kind of a top-level statement. -/
inductive StatementKind
  | importing (decl : ImportDecl)
  /-- A function declaration that is not exported in place. -/
  | function (decl : FunctionDecl)
  /-- An exported function declaration. -/
  | exportFunction (decl : FunctionDecl)
  /-- Local names put onto the surface of the module. -/
  | surface (bindings : List SurfaceBinding)
  | proxy (decl : Proxy)
  | other
  deriving DecidableEq, Inhabited, Repr

/-- A top-level statement. -/
structure Statement where
  /-- Blanks and comments between the statement before and this one. -/
  leading : String
  text : String
  /-- The line of the first character of the text, counted from one. -/
  line : Nat
  kind : StatementKind
  deriving DecidableEq, Inhabited, Repr

/-- A statement that no file holds yet; its layout and line are given to it when it is placed. -/
def Statement.unplaced (text : String) (kind : StatementKind) : Statement := ⟨"", text, 0, kind⟩

end RemoteImports
