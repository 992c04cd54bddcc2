import RemoteImports.OsString
import RemoteImports.Text.Quoted

/-!
# JSON documents

A document value and its written form: nested with two blanks for each level, one entry a line, and
nothing between the brackets of an empty list or object. A text of the operating system can be
written if it is a text; the writing of a document stops at one that is not.
-/

namespace RemoteImports

/-- What has been written, and whether it is complete or the writing failed there. -/
structure Written where
  text : String
  complete : Bool
  deriving DecidableEq, Inhabited, Repr

instance : Coe String Written := ⟨fun text => ⟨text, true⟩⟩

/-- Nothing is written after a failure. -/
instance : Append Written :=
  ⟨fun first next => if first.complete then ⟨first.text ++ next.text, next.complete⟩ else first⟩

/-- A document value, as far as reports need them. -/
inductive JsonValue
  | nat (n : Nat)
  | text (text : String)
  /-- What no document can hold. -/
  | unwritable
  | array (items : List JsonValue)
  | object (fields : List (String × JsonValue))
  deriving Inhabited, Repr

namespace JsonValue

/-- A text of the operating system, if it is a text. -/
def ofOsString (s : OsString) : JsonValue :=
  match s.text? with
  | some decoded => text decoded
  | none => unwritable

/-- A list of texts. -/
def texts (items : List String) : JsonValue := array (items.map text)

/-- A new line at a level of nesting. -/
def newLine (level : Nat) : String := "\n" ++ String.ofList (List.replicate (2 * level) ' ')

mutual

/-- The written form of a document that stands at a level of nesting. -/
def render (level : Nat) : JsonValue → Written
  | nat n => toString n
  | text s => Text.quote s
  | unwritable => ⟨"", false⟩
  | array [] => "[]"
  | array (item :: items) =>
    "[" ++ newLine (level + 1) ++ render (level + 1) item ++ renderItems (level + 1) items ++
      newLine level ++ "]"
  | object [] => "\x7b\x7d"
  | object ((key, value) :: fields) =>
    "\x7b" ++ newLine (level + 1) ++ Text.quote key ++ ": " ++ render (level + 1) value ++
      renderFields (level + 1) fields ++ newLine level ++ "\x7d"

/-- The written form of the items after the first one. -/
def renderItems (level : Nat) : List JsonValue → Written
  | [] => ""
  | item :: items => "," ++ newLine level ++ render level item ++ renderItems level items

/-- The written form of the fields after the first one. -/
def renderFields (level : Nat) : List (String × JsonValue) → Written
  | [] => ""
  | (key, value) :: fields =>
    "," ++ newLine level ++ Text.quote key ++ ": " ++ render level value ++
      renderFields level fields

end

/-- The written form of a document as a file: it ends its last line. -/
def written (value : JsonValue) : Written := value.render 0 ++ "\n"

/-- A document as a file, up to the first value that cannot be written. -/
def document (value : JsonValue) : String := value.written.text

end JsonValue

end RemoteImports
