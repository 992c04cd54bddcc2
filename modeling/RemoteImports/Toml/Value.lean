import RemoteImports.Text.Split

/-!
# Values of a settings document

What a TOML document holds: scalars, arrays and tables, each with the stretch of the document that
it was written in. A table knows how it came about, because that decides what may be added to it
later.
-/

namespace RemoteImports

/-- A stretch of a document. Its ends are given by the characters between them and the end of the
document. -/
structure TomlSpan where
  start : Nat
  stop : Nat
  deriving DecidableEq, Inhabited, Repr

/-- A key and where it is written. -/
structure TomlKey where
  name : String
  span : TomlSpan
  deriving DecidableEq, Inhabited, Repr

/-- How a table came about. -/
inductive TableForm
  /-- By a header of its own, or as the document as a whole. -/
  | header
  /-- By the header of a table inside of it. -/
  | implied
  /-- By a dotted key. -/
  | dotted
  /-- Between braces. -/
  | inline
  /-- By a dotted key between braces. -/
  | inlineDotted
  deriving DecidableEq, Inhabited, Repr

/-- A value of a document. -/
inductive TomlValue
  | text (text : String)
  | integer (n : Int)
  /-- A fractional number, by its shortest written form. -/
  | float (text : String)
  | boolean (b : Bool)
  /-- A date, a time, or both. -/
  | moment
  | array (items : List (TomlSpan × TomlValue))
  /-- The tables of one header in double brackets. -/
  | tables (items : List (TomlSpan × TomlValue))
  /-- A table with its fields in the order of their first mention. A table without a place of its
  own has no span. -/
  | table (form : TableForm) (fields : List (TomlKey × Option TomlSpan × TomlValue))
  deriving Inhabited, Repr

/-- A field of a table. -/
abbrev TomlField := TomlKey × Option TomlSpan × TomlValue

namespace TomlValue

/-- The name of the kind of a value, where a table is needed. -/
def kind : TomlValue → String
  | text _ => "string"
  | integer _ => "integer"
  | float _ => "float"
  | boolean _ => "boolean"
  | moment => "datetime"
  | array _ => "array"
  | tables _ => "array of tables"
  | table .inline _ | table .inlineDotted _ => "inline table"
  | table _ _ => "table"

/-- The written form of a character in a message. -/
def escapeShown (c : Char) : List Char :=
  if c = '"' then ['\\', '"']
  else if c = '\\' then ['\\', '\\']
  else if c = '\n' then ['\\', 'n']
  else if c = '\r' then ['\\', 'r']
  else if c = '\t' then ['\\', 't']
  else if c.toNat = 0 then ['\\', '0']
  else if c.toNat < 32 ∨ (127 ≤ c.toNat ∧ c.toNat < 160) then
    "\\u\x7b".toList ++ Nat.toDigits 16 c.toNat ++ ['\x7d']
  else [c]

/-- The description of a value in a message, where a value of another kind is needed. -/
def shown : TomlValue → String
  | text s => "string \"" ++ String.ofList (s.toList.flatMap escapeShown) ++ "\""
  | integer n => "integer \x60" ++ toString n ++ "\x60"
  | float s => "floating point \x60" ++ s ++ "\x60"
  | boolean b => "boolean \x60" ++ (if b then "true" else "false") ++ "\x60"
  | moment => "map"
  | array _ | tables _ => "sequence"
  | table _ _ => "map"

end TomlValue

end RemoteImports
