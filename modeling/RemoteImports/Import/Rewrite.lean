import RemoteImports.Import.Backend
import RemoteImports.Module.Basic
import RemoteImports.Proxy.Declaration
import RemoteImports.Failure

/-!
# Rewriting imports into proxies

An import from the backend that asks for exposed functions only is replaced by a proxy declaration.
The runtime is imported once, before the first proxy; types that came with an import stay in one
of their own before its proxy.
-/

namespace RemoteImports

/-- An import and the proxy that takes its place. -/
structure Rewrite where
  site : BackendImport
  proxy : Proxy
  deriving DecidableEq, Inhabited, Repr

/-- The rewrite of an import whose target exposes some functions. All names that it asks for have to
be among them. -/
def BackendImport.rewrite (site : BackendImport) (exposed : List String) : Except Failure Rewrite :=
  match site.requested.filter (!exposed.contains ·) with
  | [] => .ok ⟨site, ⟨site.bindings, site.requested, site.filename⟩⟩
  | missing => .error (.missingExposure site.specifier missing)

namespace Module

/-- The module after some rewrites, when a number of statements has been put in before them. -/
def rewriteAfter (m : Module) (shift : Nat) : List Rewrite → Option Module
  | [] => some m
  | r :: rest => do
    let index := r.site.position + shift
    let (_, m) ← m.replace? index r.proxy.statement
    if r.site.typeBindings = [] then rewriteAfter m shift rest
    else
      let m ← m.insert? index (typeImport r.site.specifier r.site.typeBindings)
      rewriteAfter m (shift + 1) rest

/-- The module after some rewrites, which stand in the order of their positions. There is none if a
position lies outside of the module. -/
def rewrite? (m : Module) : List Rewrite → Option Module
  | [] => some m
  | r :: rest => do
    let m ← m.insert? r.site.position runtimeImport
    m.rewriteAfter 1 (r :: rest)

/-- The module after some rewrites, and how many there were. -/
def rewriteAll? (m : Module) (rewrites : List Rewrite) : Option (Module × Nat) :=
  (m.rewrite? rewrites).map (·, rewrites.length)

end Module

end RemoteImports
