import RemoteImports.Toml.Fault

/-!
# Tables of a settings document

How the fields of a document come together. `descend` goes down a path of keys, making tables on the
way, and changes the fields of the table it reaches. A table is written down once: its header may
not come again, and a dotted key adds only to tables that dotted keys made.
-/

namespace RemoteImports.Toml

/-- The fields of a table with one of them changed, or none if there is no such field. -/
def changeField (name : String) (change : TomlField → Except TomlCause TomlField) :
    List TomlField → Except TomlCause (Option (List TomlField))
  | [] => .ok none
  | field :: rest =>
    if field.1.name = name then do
      let changed ← change field
      .ok (some (changed :: rest))
    else do
      let rest ← changeField name change rest
      .ok (rest.map (field :: ·))

/-- A list with its last member changed. -/
def changeLast {α : Type} (change : α → Except TomlCause α) : List α → Except TomlCause (List α)
  | [] => .ok []
  | [a] => do .ok [← change a]
  | a :: rest => do .ok (a :: (← changeLast change rest))

/-- What to do with the fields of a table. -/
abbrev Change := TableForm → List TomlField → Except TomlCause (List TomlField)

/-- The form of the tables that a path makes on its way. -/
inductive Way
  /-- The path of a header. -/
  | header
  /-- The path of a dotted key. -/
  | dotted
  /-- The path of a dotted key between braces. -/
  | inlineDotted
  deriving DecidableEq, Repr

/-- The form of a table made on the way. -/
def Way.form : Way → TableForm
  | header => .implied
  | dotted => .dotted
  | inlineDotted => .inlineDotted

/-- Whether a table can be entered on the way. A header enters every table, a dotted key only tables
that were not written down on their own. -/
def Way.enters (way : Way) (form : TableForm) : Bool :=
  match way, form with
  | header, .header | header, .implied | header, .dotted => true
  | dotted, .implied | dotted, .dotted => true
  | inlineDotted, .inlineDotted => true
  | _, _ => false

/-- The table in a value changed. -/
def changeTable (way : Way) (done : List String) (key : String) (change : Change) :
    TomlValue → Except TomlCause TomlValue
  | .table form fields =>
    if way.enters form then do .ok (.table form (← change form fields))
    else if form = .inline ∧ way ≠ .inlineDotted then
      .error (.extendsValue (done ++ [key]) "inline table")
    else .error (.duplicateKey key none)
  | .tables items =>
    if way = .inlineDotted then .error (.extendsValue (done ++ [key]) "array of tables")
    else do
      .ok (.tables (← changeLast (fun item =>
        match item with
        | (span, .table form fields) => do .ok (span, .table form (← change form fields))
        | other => .ok other) items))
  | other => .error (.extendsValue (done ++ [key]) other.kind)

/-- The fields of a table after a change at a path below it; `done` is the path to the table. -/
def descend (way : Way) (change : Change) : List String → List TomlKey → Change
  | _, [], form, fields => change form fields
  | done, key :: path, _, fields => do
    let deeper := descend way change (done ++ [key.name]) path
    match ← changeField key.name (fun (k, span, value) => do
      .ok (k, span, ← changeTable way done key.name deeper value)) fields with
    | some fields => .ok fields
    | none => .ok (fields ++ [(key, none, .table way.form (← deeper way.form []))])

/-- A field put into a table that was reached along some keys. -/
def putField (field : TomlField) (alongKeys : Bool) (table : Option (List String)) : Change :=
  fun form fields =>
    if (form = .dotted ∨ form = .inlineDotted) ≠ alongKeys then
      .error (.duplicateKey field.1.name none)
    else if fields.any (·.1.name = field.1.name) then
      .error (.duplicateKey field.1.name table)
    else .ok (fields ++ [field])

/-- A table that is being read: its header and the fields read so far. -/
structure OpenTable where
  path : List TomlKey
  /-- Whether the header is one in double brackets. -/
  repeated : Bool
  form : TableForm
  span : TomlSpan
  fields : List TomlField
  deriving Inhabited, Repr

/-- A document that is being read. -/
structure Draft where
  /-- The fields of the document without those of the open table. -/
  root : List TomlField
  /-- The table that fields go to; without one they belong to the document. -/
  current : Option OpenTable
  deriving Inhabited, Repr

/-- The last key of a path and the path before it. -/
def lastKey? (path : List TomlKey) : Option (List TomlKey × TomlKey) :=
  path.getLast?.map fun key => (path.dropLast, key)

/-- The names of some keys. -/
def names (path : List TomlKey) : List String := path.map TomlKey.name

/-- The fields of a parent with a closed table among them. -/
def closeIn (key : TomlKey) (table : OpenTable) : Change := fun _ fields =>
  let value := TomlValue.table .header table.fields
  if table.repeated then do
    let changed ← changeField key.name (fun (k, _, old) =>
      match old with
      | .tables items =>
        let start := (items.head?.map fun first => first.1.start).getD table.span.start
        .ok (k, some ⟨start, table.span.stop⟩, .tables (items ++ [(table.span, value)]))
      | _ => .error (.duplicateKey key.name none)) fields
    .ok (changed.getD (fields ++ [(key, some table.span, .tables [(table.span, value)])]))
  else .ok (fields ++ [(key, some table.span, value)])

/-- The fields of a document with the open table closed. -/
def Draft.close (draft : Draft) : Except TomlCause (List TomlField) :=
  match draft.current with
  | none => .ok draft.root
  | some table =>
    match lastKey? table.path with
    | none => .ok draft.root
    | some (parents, key) => descend .header (closeIn key table) [] parents .header draft.root

/-- The cause for a table that is written down again. -/
def writtenTwice (parents : List TomlKey) (key : TomlKey) : TomlCause :=
  .duplicateKey key.name (some (names parents))

/-- The field of a name. -/
def fieldOf? (name : String) (fields : List TomlField) : Option TomlField :=
  fields.find? (·.1.name = name)

/-- The fields below a path that is known to lead to a table. -/
def fieldsAt : List TomlKey → List TomlField → List TomlField
  | [], fields => fields
  | key :: path, fields =>
    match fieldOf? key.name fields with
    | some (_, _, .table _ inner) => fieldsAt path inner
    | some (_, _, .tables items) =>
      match items.getLast? with
      | some (_, .table _ inner) => fieldsAt path inner
      | _ => []
    | _ => []

/-- A document after the header of a table. A table that only headers of inner tables implied goes
on with what it has. -/
def Draft.openTable (draft : Draft) (path : List TomlKey) (span : TomlSpan) :
    Except TomlCause Draft := do
  let root ← draft.close
  match lastKey? path with
  | none => .ok ⟨root, none⟩
  | some (parents, key) =>
    let root ← descend .header (fun _ fields => .ok fields) [] parents .header root
    match fieldOf? key.name (fieldsAt parents root) with
    | none => .ok ⟨root, some ⟨path, false, .header, span, []⟩⟩
    | some (_, _, .table .implied inner) =>
      let root ← descend .header (fun _ fields => .ok (fields.filter (·.1.name ≠ key.name))) []
        parents .header root
      .ok ⟨root, some ⟨path, false, .header, span, inner⟩⟩
    | some _ => .error (writtenTwice parents key)

/-- A document after the header of one of several tables. -/
def Draft.openRepeated (draft : Draft) (path : List TomlKey) (span : TomlSpan) :
    Except TomlCause Draft := do
  let root ← draft.close
  match lastKey? path with
  | none => .ok ⟨root, none⟩
  | some (parents, key) =>
    let root ← descend .header (fun _ fields => .ok fields) [] parents .header root
    match fieldOf? key.name (fieldsAt parents root) with
    | none | some (_, _, .tables _) => .ok ⟨root, some ⟨path, true, .header, span, []⟩⟩
    | some _ => .error (writtenTwice parents key)

/-- A document after a field, whose key is the end of a dotted path. -/
def Draft.addField (draft : Draft) (path : List TomlKey) (field : TomlField) :
    Except TomlCause Draft :=
  match draft.current with
  | none => do
    let root ← descend .dotted (putField field (!path.isEmpty) (some [])) [] path .header draft.root
    .ok { draft with root }
  | some table => do
    let fields ← descend .dotted (putField field (!path.isEmpty) (some (names table.path))) [] path
      .header table.fields
    let stop := (field.2.1.map TomlSpan.stop).getD table.span.stop
    .ok { draft with current := some { table with fields, span := { table.span with stop } } }

end RemoteImports.Toml
