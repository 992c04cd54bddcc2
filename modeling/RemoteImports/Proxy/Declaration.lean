import RemoteImports.Module.Statement
import RemoteImports.Text.Quoted

/-!
# Generated statements

The statements that take the place of an import: the import of the runtime, the declaration of a
proxy, and the import of the names that are types only. The runtime reads the shape
`createRuntime(methods, { filename })`.
-/

namespace RemoteImports

/-- The module that provides the proxy factory. -/
def runtimeModule : String := "@reshuffle/fetch-runtime"

/-- The proxy factory of the runtime module. -/
def runtimeFactory : String := "createRuntime"

/-- A character that a name can start with. -/
def isNameStart (c : Char) : Bool := Text.isLetter c || c == '_' || c == '$'

/-- A character that a name can go on with. -/
def isNamePart (c : Char) : Bool := Text.isLetterOrNumeral c || c == '_' || c == '$'

/-- Whether a text can be written as a name without quotes. -/
def isPlainName (text : String) : Bool :=
  match text.toList with
  | [] => false
  | c :: rest => isNameStart c && rest.all isNamePart

/-- An imported name as a key: plain if it can be, else quoted. -/
def keyText (name : String) : String := if isPlainName name then name else Text.quote name

/-- A binding written with a word or sign between the two names. The local name is left out where it
is the key. -/
def Binding.render (between : String) (binding : Binding) : String :=
  let key := keyText binding.imported
  if key = binding.bound then key else key ++ between ++ binding.bound

/-- The text of a proxy declaration. -/
def Proxy.text (decl : Proxy) : String :=
  "const \x7b " ++ ", ".intercalate (decl.bindings.map (Binding.render ": ")) ++ " \x7d = " ++
    runtimeFactory ++ "([" ++ ", ".intercalate (decl.methods.map Text.quote) ++
    "], \x7b filename: " ++ Text.quote decl.filename ++ " \x7d);"

/-- The declaration of a proxy. -/
def Proxy.statement (decl : Proxy) : Statement := .unplaced decl.text (.proxy decl)

/-- The import of the proxy factory. -/
def runtimeImport : Statement :=
  .unplaced ("import \x7b " ++ runtimeFactory ++ " \x7d from " ++ Text.quote runtimeModule ++ ";")
    (.importing ⟨runtimeModule, false, [.named ⟨runtimeFactory, runtimeFactory⟩ false]⟩)

/-- The import of names that are types only. -/
def typeImport (specifier : String) (bindings : List Binding) : Statement :=
  .unplaced ("import type \x7b " ++ ", ".intercalate (bindings.map (Binding.render " as ")) ++
      " \x7d from " ++ Text.quote specifier ++ ";")
    (.importing ⟨specifier, true, bindings.map (.named · false)⟩)

end RemoteImports
