import RemoteImports.Toml.Scalar
import RemoteImports.Toml.Tables

/-!
# Reading a settings document

Keys, values and lines of a TOML document. Arrays and inline tables nest at most `depthLimit` deep.
`document` reads a text as a whole.
-/

namespace RemoteImports.Toml

/-- One more than the most keys of a path and the deepest nesting of values. -/
def depthLimit : Nat := 80

/-- A text without the blanks in front of it. -/
def skipSpace (text : List Char) : List Char := text.dropWhile isSpace

/-- The stretch between two rests of a document. -/
def between (start stop : List Char) : TomlSpan := ⟨start.length, stop.length⟩

/-! ## Keys -/

/-- Whether a character may stand in a key without quotes. -/
def isKeyChar (c : Char) : Bool :=
  ('A' ≤ c && c ≤ 'Z') || ('a' ≤ c && c ≤ 'z') || ('0' ≤ c && c ≤ '9') || c == '_' || c == '-'

/-- One key at the start of a text. -/
def simpleKey (text : List Char) : Except TomlFault (TomlKey × List Char) := do
  let (name, rest) ←
    match text with
    | '"' :: rest => basicText rest
    | '\'' :: rest => literalText rest
    | _ =>
      match text.takeWhile isKeyChar with
      | [] => .error (.before text (some "key") [])
      | name => .ok (name, text.dropWhile isKeyChar)
  .ok (⟨String.ofList name, between text rest⟩, rest)

/-- The keys of a path, the first of which starts after blanks. The bound is on the characters that
are left. -/
def keyPathWithin : Nat → List Char → Except TomlFault (List TomlKey × List Char)
  | 0, text => .error (.before text (some "key") [])
  | bound + 1, text => do
    let (key, rest) ← simpleKey (skipSpace text)
    match skipSpace rest with
    | '.' :: rest => do
      let (keys, rest) ← keyPathWithin bound rest
      .ok (key :: keys, rest)
    | rest => .ok ([key], rest)

/-- The path of keys at the start of a text. -/
def keyPath (text : List Char) : Except TomlFault (List TomlKey × List Char) := do
  let (keys, rest) ← keyPathWithin (text.length + 1) text
  if depthLimit ≤ keys.length then .error ((TomlFault.because text .tooDeep).within "key")
  else .ok (keys, rest)

/-! ## Values -/

/-- A reader of one value. -/
abbrev ValueReader := List Char → Except TomlFault (TomlValue × List Char)

/-- The rest of a line without its comment. -/
def skipComment (text : List Char) : List Char :=
  match text with
  | '#' :: rest => rest.dropWhile isPrintable
  | _ => text

/-- A text without the blanks, line ends and comments in front of it. A comment counts only with the
line end after it. -/
def skipLayoutWithin : Nat → List Char → List Char
  | 0, text => text
  | bound + 1, text =>
    match afterNewline? (skipComment (skipSpace text)) with
    | some rest => skipLayoutWithin bound rest
    | none => skipSpace text

/-- A text without the blanks, line ends and comments in front of it. -/
def skipLayout (text : List Char) : List Char := skipLayoutWithin text.length text

/-- The fault of an array that goes on with something wrong. -/
def openArray (rest : List Char) : TomlFault := .before rest (some "array") ["\x60]\x60"]

/-- Whether a value can start with a character. -/
def startsValue (c : Char) : Bool :=
  isDecimal c || "\"'[\x7b+-tfin".toList.contains c

/-- The values of an array and its closing bracket. -/
def arrayItems (value : ValueReader) :
    Nat → List Char → Except TomlFault (List (TomlSpan × TomlValue) × List Char)
  | 0, text => .error (openArray text)
  | bound + 1, text =>
    match skipLayout text with
    | ']' :: rest => .ok ([], rest)
    | [] => .error (openArray [])
    | c :: after =>
      if startsValue c then do
        let (item, rest) ← value (c :: after)
        let span := between (c :: after) rest
        match skipLayout rest with
        | ',' :: rest => do
          let (items, rest) ← arrayItems value bound rest
          .ok ((span, item) :: items, rest)
        | ']' :: rest => .ok ([(span, item)], rest)
        | rest => .error (openArray rest)
      else .error (openArray (c :: after))

/-- The fault of a table between braces that goes on with something wrong. -/
def openInline (rest : List Char) : TomlFault :=
  .before rest (some "inline table") ["\x60\x7d\x60"]

/-- The equals sign after a key. -/
def equalsSign : List Char → Except TomlFault (Unit × List Char)
  | '=' :: rest => .ok ((), rest)
  | rest => .error (.before rest none ["\x60.\x60", "\x60=\x60"])

/-- A dotted path with the field at its end, in the order they are written. -/
abbrev PathField := List TomlKey × TomlField

/-- The path before the last key, and the field that a value is for it. -/
def pathField (keys : List TomlKey) (span : TomlSpan) (value : TomlValue) : Option PathField :=
  (lastKey? keys).map fun (path, key) => (path, key, some span, value)

/-- Whether a key can start with a character. -/
def startsKey (c : Char) : Bool := isKeyChar c || c == '"' || c == '\''

/-- The fields of a table between braces and its closing brace, when a field has to follow. -/
def inlineFields (value : ValueReader) :
    Nat → List Char → Except TomlFault (List PathField × List Char)
  | 0, text => .error (openInline text)
  | bound + 1, text => do
    let (keys, rest) ← keyPath text
    let (_, rest) ← equalsSign rest
    let start := skipSpace rest
    let (item, rest) ← value start
    let fields := (pathField keys (between start rest) item).toList
    match skipSpace rest with
    | ',' :: more =>
      if (skipSpace more).head?.any startsKey then do
        let (later, rest) ← inlineFields value bound more
        .ok (fields ++ later, rest)
      else .error (openInline (skipSpace rest))
    | '\x7d' :: rest => .ok (fields, rest)
    | rest => .error (openInline rest)

/-- The fields of a table between braces, put together. -/
def gather : List PathField → List TomlField → Except TomlCause (List TomlField)
  | [], fields => .ok fields
  | (path, field) :: later, fields => do
    let fields ← descend .inlineDotted (putField field (!path.isEmpty) none) [] path .inline fields
    gather later fields

/-- A table between braces, after the opening one. -/
def inlineTable (value : ValueReader) (text : List Char) :
    Except TomlFault (TomlValue × List Char) := do
  match skipSpace text with
  | '\x7d' :: rest => .ok (.table .inline [], rest)
  | start =>
    if start.head?.any startsKey then
      let (fields, rest) ← inlineFields value (text.length + 1) text
      match gather fields [] with
      | .ok fields => .ok (.table .inline fields, rest)
      | .error cause => .error (.because text cause)
    else .error (openInline start)

/-- The fault of a text that no value starts with. -/
def noValue (text : List Char) : TomlFault :=
  if text = [] then .before [] none []
  else .before text (some "string") ["\x60\"\x60", "\x60'\x60"]

/-- A word at the start of a text that stands for a value. -/
def word (spelled : List Char) (value : TomlValue) (text : List Char) :
    Except TomlFault (TomlValue × List Char) :=
  if spelled.isPrefixOf text then .ok (value, text.drop spelled.length) else .error (noValue text)

/-- The value at the start of a text, with a bound on the nesting. -/
def valueWithin : Nat → ValueReader
  | bound, text =>
    match text with
    | [] => .error (noValue [])
    | c :: rest =>
      if c = '"' ∨ c = '\'' then
        (string text).map fun (s, rest) => (.text (String.ofList s), rest)
      else if c = '[' then
        match bound with
        | 0 => .error (.because text .tooDeep)
        | bound + 1 =>
          (arrayItems (valueWithin bound) (rest.length + 1) rest).map fun (items, rest) =>
            (.array items, rest)
      else if c = '\x7b' then
        match bound with
        | 0 => .error (.because text .tooDeep)
        | bound + 1 => inlineTable (valueWithin bound) rest
      else if c = '+' ∨ c = '-' ∨ isDecimal c then numberOrMoment text
      else if c = '_' ∨ c = '.' then
        .error (.before text
          (some (if c = '_' then "integer" else "floating-point number")) ["leading digit"])
      else if c = 't' then word "true".toList (.boolean true) text
      else if c = 'f' then word "false".toList (.boolean false) text
      else if c = 'i' then word "inf".toList (.float "inf") text
      else if c = 'n' then word "nan".toList (.float "NaN") text
      else .error (noValue text)

/-- The value at the start of a text. -/
def value : ValueReader := valueWithin (depthLimit - 1)

/-! ## Lines -/

/-- The end of a line, with blanks and a comment before it. -/
def lineEnd (text : List Char) : Except TomlFault (Unit × List Char) :=
  match skipComment (skipSpace text) with
  | [] => .ok ((), [])
  | rest =>
    match afterNewline? rest with
    | some rest => .ok ((), rest)
    | none => .error (.before rest none ["newline", "\x60#\x60"])

/-- The fault of a header without its closing bracket. -/
def openHeader (rest : List Char) (bracket : String) : TomlFault :=
  .before rest (some "table header") ["\x60.\x60", "\x60" ++ bracket ++ "\x60"]

/-- A cause met while a part of a document is taken up. -/
def located {α : Type} (text : List Char) (label : Option String) (result : Except TomlCause α) :
    Except TomlFault α :=
  result.mapError fun cause => { TomlFault.because text cause with label }

/-- A document after the line of a header, which starts with a bracket. -/
def header (draft : Draft) (text : List Char) : Except TomlFault (Draft × List Char) :=
  let label := some "table header"
  let inHeader {α : Type} (result : Except TomlFault α) : Except TomlFault α :=
    result.mapError (·.within "table header")
  match text with
  | '[' :: '[' :: rest => do
    let (path, rest) ← inHeader (keyPath rest)
    match rest with
    | ']' :: ']' :: rest => do
      let span := between text rest
      let (_, rest) ← inHeader (lineEnd rest)
      .ok (← located text label (draft.openRepeated path span), rest)
    | rest => .error (openHeader rest "]]")
  | _ => do
    let (path, rest) ← inHeader (keyPath (text.drop 1))
    match rest with
    | ']' :: rest => do
      let span := between text rest
      let (_, rest) ← inHeader (lineEnd rest)
      .ok (← located text label (draft.openTable path span), rest)
    | rest => .error (openHeader rest "]")

/-- A document after the line of a field. -/
def fieldLine (draft : Draft) (text : List Char) : Except TomlFault (Draft × List Char) := do
  let (keys, rest) ← keyPath text
  let (_, rest) ← equalsSign rest
  let start := skipSpace rest
  let (item, rest) ← value start
  let span := between start rest
  let (_, rest) ← lineEnd rest
  match pathField keys span item with
  | none => .ok (draft, rest)
  | some (path, field) => .ok (← located text none (draft.addField path field), rest)

/-- The fields of the rest of a document. Every step takes a character, so the characters bound the
steps. -/
def linesWithin : Nat → Draft → List Char → Except TomlFault (List TomlField)
  | 0, draft, text => located text none draft.close
  | bound + 1, draft, text =>
    match skipSpace text with
    | [] => located [] none draft.close
    | '#' :: rest =>
      match rest.dropWhile isPrintable with
      | [] => located [] none draft.close
      | after =>
        match afterNewline? after with
        | some after => linesWithin bound draft after
        | none => .error (.before after none [])
    | '[' :: rest => do
      let (draft, rest) ← header draft ('[' :: rest)
      linesWithin bound draft rest
    | text =>
      match afterNewline? text with
      | some rest => linesWithin bound draft rest
      | none => do
        let (draft, rest) ← fieldLine draft text
        linesWithin bound draft rest

/-- A text without the byte-order mark in front of it. -/
def withoutMark : List Char → List Char
  | c :: rest => if c.toNat = 0xFEFF then rest else c :: rest
  | [] => []

/-- The fields of a document. -/
def document (text : List Char) : Except TomlFault (List TomlField) :=
  let text := withoutMark text
  linesWithin (text.length + 1) ⟨[], none⟩ text

end RemoteImports.Toml
