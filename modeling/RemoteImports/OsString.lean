/-!
# Texts of the operating system

File names, paths and the values of variables are bytes. Most of them encode a text, but nothing
holds them to it. `OsString.text?` is the text that the bytes encode, if they encode one.
`OsString.text` is what is shown for them: bytes that belong to no character are replaced, those
that start one and break off as a whole, all others one by one.
-/

namespace RemoteImports

/-- A text of the operating system: any bytes, which may or may not encode a text. -/
@[ext]
structure OsString where
  bytes : List UInt8
  deriving DecidableEq, Inhabited, Repr

namespace OsString

/-- The encoded form of a text. -/
def ofText (text : String) : OsString := ⟨text.toUTF8.data.toList⟩

instance : Coe String OsString := ⟨ofText⟩

instance : Coe (List String) (List OsString) := ⟨List.map ofText⟩

instance : Append OsString := ⟨fun s t => ⟨s.bytes ++ t.bytes⟩⟩

/-- The byte of a slash. -/
@[match_pattern] abbrev slash : UInt8 := 47

/-- The byte of a dot. -/
@[match_pattern] abbrev dot : UInt8 := 46

/-- Names with slashes between them. -/
def join (names : List OsString) : OsString := ⟨[slash].intercalate (names.map bytes)⟩

/-- The text that the bytes encode, if they encode one. -/
def text? (s : OsString) : Option String := String.fromUTF8? ⟨s.bytes.toArray⟩

/-! ## Bytes that encode no text -/

/-- A character of which the first bytes have been read. -/
structure Begun where
  /-- The number that these bytes stand for. -/
  value : Nat
  /-- The bounds of the next byte. -/
  low : UInt8
  high : UInt8
  /-- How many bytes come after the next one. -/
  more : Nat
  deriving DecidableEq, Inhabited, Repr

/-- The bounds of the second byte of a character, by its first one. The narrower ones rule out
longer forms than needed, surrogates, and numbers that are too large. -/
def secondBounds (first : UInt8) : UInt8 × UInt8 :=
  if first = 0xE0 then (0xA0, 0xBF)
  else if first = 0xED then (0x80, 0x9F)
  else if first = 0xF0 then (0x90, 0xBF)
  else if first = 0xF4 then (0x80, 0x8F)
  else (0x80, 0xBF)

/-- The character that a byte begins, if it is the first of several. -/
def begin? (first : UInt8) : Option Begun :=
  let (low, high) := secondBounds first
  if 0xC2 ≤ first ∧ first ≤ 0xDF then some ⟨first.toNat - 0xC0, low, high, 0⟩
  else if 0xE0 ≤ first ∧ first ≤ 0xEF then some ⟨first.toNat - 0xE0, low, high, 1⟩
  else if 0xF0 ≤ first ∧ first ≤ 0xF4 then some ⟨first.toNat - 0xF0, low, high, 2⟩
  else none

/-- What is shown for bytes that belong to no character. -/
def replacement : Char := '\uFFFD'

/-- The character with a code point. -/
def charOf (code : Nat) : Char :=
  if code.isValidChar then Char.ofNat code else replacement

/-- What a byte between characters settles, and the character that it begins. -/
def startByte (b : UInt8) : List Char × Option Begun :=
  if b < 0x80 then ([charOf b.toNat], none)
  else
    match begin? b with
    | some begun => ([], some begun)
    | none => ([replacement], none)

/-- What a byte settles, and the character that is begun after it. A byte that does not go on with
the begun character stands between characters. -/
def nextByte (begun : Option Begun) (b : UInt8) : List Char × Option Begun :=
  match begun with
  | none => startByte b
  | some ⟨value, low, high, more⟩ =>
    if low ≤ b ∧ b ≤ high then
      let value := 64 * value + (b.toNat - 0x80)
      match more with
      | 0 => ([charOf value], none)
      | more + 1 => ([], some ⟨value, 0x80, 0xBF, more⟩)
    else (replacement :: (startByte b).1, (startByte b).2)

/-- What is shown for some bytes, with the character that is begun before them. -/
def shownAfter : Option Begun → List UInt8 → List Char
  | none, [] => []
  | some _, [] => [replacement]
  | begun, b :: bytes => (nextByte begun b).1 ++ shownAfter (nextByte begun b).2 bytes

/-- What is shown for the bytes: their text, if they encode one. -/
def text (s : OsString) : String := s.text?.getD (String.ofList (shownAfter none s.bytes))

example : text ⟨[0x61, 0xE2, 0x82, 0x2E, 0xFF, 0x62]⟩ = "a\uFFFD.\uFFFDb" := by decide +kernel

end OsString

end RemoteImports
