import RemoteImports.Module.Statement

/-!
# Modules

A module is the list of its statements with the text after the last of them. Statements are put in
and replaced by position. An edit keeps the layout: what stood before a statement passes to the
statement that takes its place.
-/

namespace RemoteImports

/-- A source file as a list of statements. -/
structure Module where
  path : FilePath
  dialect : Dialect
  statements : List Statement
  /-- The text after the last statement. -/
  trailing : String
  deriving DecidableEq, Inhabited, Repr

namespace Module

/-- The text of a list of statements, each with the layout before it. -/
def sourceOf : List Statement → String
  | [] => ""
  | s :: rest => s.leading ++ s.text ++ sourceOf rest

/-- The text of a module. -/
def source (m : Module) : String := sourceOf m.statements ++ m.trailing

/-- A list with a statement put in before a position. A statement put in before another one takes
over its layout and line, and the other one starts a new line; at the end it is put as it is. There
is no place behind the end. -/
def insertAt (new : Statement) : Nat → List Statement → Option (List Statement)
  | 0, [] => some [new]
  | 0, s :: rest => some ({ new with leading := s.leading, line := s.line } ::
      { s with leading := "\n" } :: rest)
  | _ + 1, [] => none
  | n + 1, s :: rest => (insertAt new n rest).map (s :: ·)

/-- A list with the statement at a position replaced, and the old statement without its layout. The
new one takes over the layout and the line. -/
def replaceAt (new : Statement) : Nat → List Statement → Option (Statement × List Statement)
  | _, [] => none
  | 0, s :: rest =>
    some ({ s with leading := "" }, { new with leading := s.leading, line := s.line } :: rest)
  | n + 1, s :: rest => (replaceAt new n rest).map fun (old, rest') => (old, s :: rest')

/-- The module with a statement put in before a position, if there is such a place. -/
def insert? (m : Module) (position : Nat) (new : Statement) : Option Module :=
  (insertAt new position m.statements).map fun statements => { m with statements }

/-- The replaced statement and the module with another one in its place, if there is one at the
position. -/
def replace? (m : Module) (position : Nat) (new : Statement) : Option (Statement × Module) :=
  (replaceAt new position m.statements).map fun (old, statements) => (old, { m with statements })

end Module

end RemoteImports
