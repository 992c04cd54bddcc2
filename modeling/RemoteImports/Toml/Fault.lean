import RemoteImports.Text.Size
import RemoteImports.Toml.Value

/-!
# Faults of a settings document

Why a document cannot be read, and the message for it: the place, the line with the place marked,
and what is wrong there. Columns count characters, marks are as wide as the bytes they stand for.
-/

namespace RemoteImports

/-- What is wrong at a place of a document. -/
inductive TomlCause
  /-- A key is set twice, in a table with a path or in one that is not named. -/
  | duplicateKey (key : String) (table : Option (List String))
  /-- A dotted key leads through a value that is no table. -/
  | extendsValue (path : List String) (kind : String)
  /-- A number or a part of a date is out of its range. -/
  | outOfRange
  /-- A number is too large. -/
  | tooLarge (negative : Bool)
  /-- Values are nested too deeply. -/
  | tooDeep
  /-- A value has the wrong kind. -/
  | wrongKind (found wanted : String)
  /-- A list has too few members to stand for a table. -/
  | tooShort (length : Nat) (wanted : String)
  deriving DecidableEq, Inhabited, Repr

/-- The description of a cause. -/
def TomlCause.message : TomlCause → String
  | duplicateKey key none => "duplicate key \x60" ++ key ++ "\x60"
  | duplicateKey key (some []) => "duplicate key \x60" ++ key ++ "\x60 in document root"
  | duplicateKey key (some path) =>
    "duplicate key \x60" ++ key ++ "\x60 in table \x60" ++ ".".intercalate path ++ "\x60"
  | extendsValue path kind =>
    "dotted key \x60" ++ ".".intercalate path ++ "\x60 attempted to extend non-table type (" ++
      kind ++ ")"
  | outOfRange => "value is out of range"
  | tooLarge false => "number too large to fit in target type"
  | tooLarge true => "number too small to fit in target type"
  | tooDeep => "recursion limit exceeded"
  | wrongKind found wanted => "invalid type: " ++ found ++ ", expected " ++ wanted
  | tooShort length wanted => "invalid length " ++ toString length ++ ", expected " ++ wanted

/-- A fault of a document. -/
structure TomlFault where
  /-- Where the fault is. -/
  span : TomlSpan
  /-- What was being read. -/
  label : Option String := none
  /-- What could have stood there. -/
  expected : List String := []
  cause : Option TomlCause := none
  deriving DecidableEq, Inhabited, Repr

namespace TomlFault

/-- A fault before the rest of a document. -/
def before (rest : List Char) (label : Option String) (expected : List String) : TomlFault :=
  ⟨⟨rest.length, rest.length - 1⟩, label, expected, none⟩

/-- A fault with a cause before the rest of a document. -/
def because (rest : List Char) (cause : TomlCause) : TomlFault :=
  ⟨⟨rest.length, rest.length - 1⟩, none, [], some cause⟩

/-- The fault seen as one of something larger, unless it names something already. -/
def within (fault : TomlFault) (label : String) : TomlFault :=
  { fault with label := some (fault.label.getD label) }

/-- What is wrong, without the place. -/
def description (fault : TomlFault) : String :=
  "\n".intercalate <|
    (fault.label.toList.map ("invalid " ++ ·)) ++
    (if fault.expected = [] then [] else ["expected " ++ ", ".intercalate fault.expected]) ++
    fault.cause.toList.map TomlCause.message

/-- Blanks in a row. -/
def blanks (n : Nat) : List Char := List.replicate n ' '

/-- The message for a fault of a document. A place behind the last character is shown after it. -/
def message (fault : TomlFault) (source : List Char) : String :=
  let offset := source.length - fault.span.start
  let before := source.take (min offset (source.length - 1))
  let beyond := offset - (source.length - 1)
  let line := before.count '\n'
  let column := (before.reverse.takeWhile (· ≠ '\n')).length + beyond
  let content := (source.splitOn '\n').getD line []
  let width := Text.byteSize ((source.drop offset).take (fault.span.start - fault.span.stop))
  let marks := max 1 (min width (Text.byteSize content - column))
  let number := toString (line + 1)
  let gutter := blanks (number.length + 1)
  "TOML parse error at line " ++ number ++ ", column " ++ toString (column + 1) ++ "\n" ++
    String.ofList (gutter ++ ['|', '\n']) ++
    number ++ " | " ++ String.ofList content ++ "\n" ++
    String.ofList (gutter ++ '|' :: blanks (column + 1) ++ List.replicate marks '^' ++ ['\n']) ++
    fault.description ++ "\n"

end TomlFault

end RemoteImports
