import RemoteImports.Script.Node

/-!
# Readers

A reader takes characters off the front of a text, or refuses. A refused reader takes nothing, so
the next alternative starts at the same place; all that it leaves is how far it got. `Cursor.reach`
is the farthest place at which any reader refused so far, taken over all alternatives that were
tried: a text that breaks the grammar breaks it there. Loops carry a bound on their rounds.
-/

namespace RemoteImports.Script

/-- A place in a text. -/
structure Cursor where
  /-- The characters still to come. -/
  rest : List Char
  /-- How many characters came before. -/
  offset : Nat
  /-- The farthest place at which a reader refused. -/
  reach : Nat
  deriving Inhabited, Repr

namespace Cursor

/-- The start of a text. -/
def start (source : List Char) : Cursor := ⟨source, 0, 0⟩

/-- The cursor after a refusal that reached a place. -/
def reaching (c : Cursor) (reach : Nat) : Cursor := { c with reach := max c.reach reach }

/-- The cursor after some of the characters to come are taken. -/
def advance (c : Cursor) (n : Nat) : Cursor :=
  { c with rest := c.rest.drop n, offset := c.offset + n }

end Cursor

/-- A reader of a value of type `α`. A refusal is the farthest place that was reached. -/
def Reader (α : Type) : Type := Cursor → Except Nat (α × Cursor)

namespace Reader

/-- A value, with nothing taken. -/
@[always_inline, inline]
def give {α : Type} (x : α) : Reader α := fun c => .ok (x, c)

/-- One reader after another. -/
@[always_inline, inline]
def andThen {α β : Type} (r : Reader α) (next : α → Reader β) : Reader β := fun c =>
  match r c with
  | .ok (x, c) => next x c
  | .error reach => .error reach

/-- A refusal here. -/
@[always_inline, inline]
def refuse {α : Type} : Reader α := fun c => .error (max c.reach c.offset)

/-- A reader or, where it refuses, another one at the same place. -/
@[always_inline, inline]
def orTry {α : Type} (r : Reader α) (other : Unit → Reader α) : Reader α := fun c =>
  match r c with
  | .ok done => .ok done
  | .error reach => other () (c.reaching reach)

instance : Monad Reader where
  pure := give
  bind := andThen

instance : Alternative Reader where
  failure := refuse
  orElse := orTry

/-- The number of characters before the cursor. -/
def here : Reader Nat := fun c => .ok (c.offset, c)

/-- The characters to come. -/
def ahead : Reader (List Char) := fun c => .ok (c.rest, c)

/-- The next character, left where it is. -/
def peek : Reader (Option Char) := fun c => .ok (c.rest.head?, c)

/-- The given number of characters. -/
def skip (n : Nat) : Reader Unit := fun c => .ok ((), c.advance n)

/-- The next character, if it is of a class. -/
def satisfy (cls : Char → Bool) : Reader Char := fun c =>
  match c.rest with
  | [] => refuse c
  | x :: rest =>
    if cls x then .ok (x, { c with rest := rest, offset := c.offset + 1 }) else refuse c

/-- One given character. -/
def char (x : Char) : Reader Unit := do
  let _ ← satisfy (· == x)

/-- The text after a given start, if it has that start. -/
def stripStart : List Char → List Char → Option (List Char)
  | [], text => some text
  | _ :: _, [] => none
  | x :: start, y :: text => if x = y then stripStart start text else none

/-- A given text. -/
def text (expected : String) : Reader Unit := fun c =>
  let start := expected.toList
  match stripStart start c.rest with
  | some rest => .ok ((), { c with rest := rest, offset := c.offset + start.length })
  | none => refuse c

/-- The longest run of characters of a class. -/
def takeWhile (cls : Char → Bool) : Reader (List Char) := fun c =>
  let run := c.rest.takeWhile cls
  .ok (run, c.advance run.length)

/-- The longest run of characters of a class, at least one. -/
def takeWhile1 (cls : Char → Bool) : Reader (List Char) := do
  let run ← takeWhile cls
  if run.isEmpty then failure else pure run

/-- The end of the text. -/
def atEnd : Reader Unit := fun c => if c.rest.isEmpty then .ok ((), c) else refuse c

/-- What a condition asks for, or a refusal. -/
def require (condition : Bool) : Reader Unit := if condition then pure () else failure

/-- Whether a reader would succeed here; nothing is taken. -/
def sees {α : Type} (r : Reader α) : Reader Bool := fun c =>
  match r c with
  | .ok (_, after) => .ok (true, c.reaching after.reach)
  | .error reach => .ok (false, c.reaching reach)

/-- Refuses where a reader would succeed. -/
def unlessSees {α : Type} (r : Reader α) : Reader Unit := do
  if ← sees r then failure

/-- A reader or, where it refuses, a value. -/
def orValue {α : Type} (r : Reader α) (value : α) : Reader α := r <|> pure value

/-- Takes what a reader takes, if it succeeds. -/
def maybe {α : Type} (r : Reader α) : Reader Unit := (do let _ ← r) <|> pure ()

/-- Whether a reader succeeded; what it took stays taken. -/
def succeeded {α : Type} (r : Reader α) : Reader Bool := (do let _ ← r; pure true) <|> pure false

/-- A reader as often as it succeeds, at most `limit` times. -/
def many {α : Type} (r : Reader α) : Nat → Reader (List α)
  | 0 => pure []
  | limit + 1 => (do
      let x ← r
      let xs ← many r limit
      pure (x :: xs)) <|> pure []

/-- The first of several readers that succeeds. -/
def firstOf {α : Type} : List (Reader α) → Reader α
  | [] => failure
  | r :: rest => r <|> firstOf rest

end Reader

end RemoteImports.Script
