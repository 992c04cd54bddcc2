import RemoteImports.Text.Hex
import RemoteImports.Toml.Fault

/-!
# Scalars of a settings document

Strings in their four forms, numbers, dates and times. Every reader takes the rest of a document and
gives back what it read with what is left.
-/

namespace RemoteImports.Toml

/-- Whether a character is a blank inside a line. -/
def isSpace (c : Char) : Bool := c == ' ' || c == '\t'

/-- Whether a character may stand in a comment or a string. -/
def isPrintable (c : Char) : Bool := c == '\t' || (32 ≤ c.toNat && c.toNat ≠ 127)

/-- What follows a line end at the start of a text. -/
def afterNewline? : List Char → Option (List Char)
  | '\n' :: rest => some rest
  | '\r' :: '\n' :: rest => some rest
  | _ => none

/-! ## Strings -/

/-- What the escape of one letter stands for. -/
def shortEscape? : Char → Option Char
  | 'b' => some (Char.ofNat 8)
  | 't' => some '\t'
  | 'n' => some '\n'
  | 'f' => some (Char.ofNat 12)
  | 'r' => some '\r'
  | '"' => some '"'
  | '\\' => some '\\'
  | _ => none

/-- The fault of an escape, before what follows the backslash. -/
def badEscape (rest : List Char) : TomlFault :=
  .before rest (some "escape sequence")
    ["\x60b\x60", "\x60f\x60", "\x60n\x60", "\x60r\x60", "\x60t\x60", "\x60u\x60", "\x60U\x60",
      "\x60\\\x60", "\x60\"\x60"]

/-- The fault of an escape with digits, before the digits. -/
def badScalar (rest : List Char) (digits : Nat) : TomlFault :=
  .before rest (some ("unicode " ++ toString digits ++ "-digit hex code")) []

/-- A character before what a reader gives back. -/
def andThen (c : Char) :
    Except TomlFault (List Char × List Char) → Except TomlFault (List Char × List Char)
  | .ok (text, rest) => .ok (c :: text, rest)
  | .error fault => .error fault

/-- The rest of a string in double quotes. -/
def basicText : List Char → Except TomlFault (List Char × List Char)
  | '"' :: rest => .ok ([], rest)
  | '\\' :: 'u' :: a :: b :: c :: d :: rest =>
    match Text.scalar? [a, b, c, d] with
    | some x => andThen x (basicText rest)
    | none => .error (badScalar (a :: b :: c :: d :: rest) 4)
  | '\\' :: 'U' :: a :: b :: c :: d :: e :: f :: g :: h :: rest =>
    match Text.scalar? [a, b, c, d, e, f, g, h] with
    | some x => andThen x (basicText rest)
    | none => .error (badScalar (a :: b :: c :: d :: e :: f :: g :: h :: rest) 8)
  | '\\' :: c :: rest =>
    match shortEscape? c with
    | some x => andThen x (basicText rest)
    | none => .error (badEscape (c :: rest))
  | c :: rest =>
    if isPrintable c && c != '\\' then andThen c (basicText rest)
    else .error (.before (c :: rest) (some "basic string") [])
  | [] => .error (.before [] (some "basic string") [])

/-- Whether the rest of a line, after a backslash, joins the next line. -/
def joinsLines (rest : List Char) : Bool := (afterNewline? (rest.dropWhile isSpace)).isSome

/-- The rest of a string in triple double quotes; after a joined line, blanks and line ends are
skipped. -/
def longBasicText : Bool → List Char → Except TomlFault (List Char × List Char)
  | true, ' ' :: rest => longBasicText true rest
  | true, '\t' :: rest => longBasicText true rest
  | true, '\n' :: rest => longBasicText true rest
  | true, '\r' :: '\n' :: rest => longBasicText true rest
  | _, '"' :: '"' :: '"' :: '"' :: '"' :: rest => .ok (['"', '"'], rest)
  | _, '"' :: '"' :: '"' :: '"' :: rest => .ok (['"'], rest)
  | _, '"' :: '"' :: '"' :: rest => .ok ([], rest)
  | _, '\\' :: 'u' :: a :: b :: c :: d :: rest =>
    match Text.scalar? [a, b, c, d] with
    | some x => andThen x (longBasicText false rest)
    | none => .error (badScalar (a :: b :: c :: d :: rest) 4)
  | _, '\\' :: 'U' :: a :: b :: c :: d :: e :: f :: g :: h :: rest =>
    match Text.scalar? [a, b, c, d, e, f, g, h] with
    | some x => andThen x (longBasicText false rest)
    | none => .error (badScalar (a :: b :: c :: d :: e :: f :: g :: h :: rest) 8)
  | _, '\\' :: c :: rest =>
    match shortEscape? c with
    | some x => andThen x (longBasicText false rest)
    | none =>
      if joinsLines (c :: rest) then longBasicText true rest
      else .error (badEscape (c :: rest))
  | _, '\r' :: '\n' :: rest => andThen '\n' (longBasicText false rest)
  | _, c :: rest =>
    if (isPrintable c || c == '\n') && c != '\\' then andThen c (longBasicText false rest)
    else .error (.before (c :: rest) (some "multiline basic string") [])
  | _, [] => .error (.before [] (some "multiline basic string") [])

/-- The rest of a string in single quotes. -/
def literalText : List Char → Except TomlFault (List Char × List Char)
  | '\'' :: rest => .ok ([], rest)
  | c :: rest =>
    if isPrintable c then andThen c (literalText rest)
    else .error (.before (c :: rest) (some "literal string") [])
  | [] => .error (.before [] (some "literal string") [])

/-- The rest of a string in triple single quotes. -/
def longLiteralText : List Char → Except TomlFault (List Char × List Char)
  | '\'' :: '\'' :: '\'' :: '\'' :: '\'' :: rest => .ok (['\'', '\''], rest)
  | '\'' :: '\'' :: '\'' :: '\'' :: rest => .ok (['\''], rest)
  | '\'' :: '\'' :: '\'' :: rest => .ok ([], rest)
  | '\r' :: '\n' :: rest => andThen '\n' (longLiteralText rest)
  | c :: rest =>
    if isPrintable c || c == '\n' then andThen c (longLiteralText rest)
    else .error (.before (c :: rest) (some "multiline literal string") [])
  | [] => .error (.before [] (some "multiline literal string") [])

/-- A text without a line end at its start. -/
def withoutNewline (text : List Char) : List Char := (afterNewline? text).getD text

/-- The string at the start of a text that starts with a quotation mark. -/
def string : List Char → Except TomlFault (List Char × List Char)
  | '"' :: '"' :: '"' :: rest => longBasicText false (withoutNewline rest)
  | '"' :: rest => basicText rest
  | '\'' :: '\'' :: '\'' :: rest => longLiteralText (withoutNewline rest)
  | '\'' :: rest => literalText rest
  | text => .error (.before text (some "string") ["\x60\"\x60", "\x60'\x60"])

/-! ## Numbers -/

/-- The digits after the first one. An underscore stands between two digits. -/
def moreDigits (isDigit : Char → Bool) (label : String) :
    List Char → Except TomlFault (List Char × List Char)
  | '_' :: c :: rest =>
    if isDigit c then andThen c (moreDigits isDigit label rest)
    else .error (.before (c :: rest) (some label) ["digit"])
  | '_' :: [] => .error (.before [] (some label) ["digit"])
  | c :: rest =>
    if isDigit c then andThen c (moreDigits isDigit label rest) else .ok ([], c :: rest)
  | [] => .ok ([], [])

/-- A row of digits, the first of them required. -/
def digits (isDigit : Char → Bool) (label : String) :
    List Char → Except TomlFault (List Char × List Char)
  | c :: rest =>
    if isDigit c then andThen c (moreDigits isDigit label rest)
    else .error (.before (c :: rest) (some label) ["digit"])
  | [] => .error (.before [] (some label) ["digit"])

/-- Whether a character is a decimal digit. -/
def isDecimal (c : Char) : Bool := '0' ≤ c && c ≤ '9'

/-- The value of a row of digits of a base up to sixteen. -/
def numberOf (base : Nat) (text : List Char) : Nat :=
  text.foldl (fun n c => base * n + (Text.hexDigit? c).getD 0) 0

/-- A sign and what follows it. -/
def signOf : List Char → Bool × List Char
  | '-' :: rest => (true, rest)
  | '+' :: rest => (false, rest)
  | text => (false, text)

/-- The whole part of a decimal number, which has no zero in front. -/
def wholePart : List Char → Except TomlFault (List Char × List Char)
  | '0' :: rest => .ok (['0'], rest)
  | text =>
    match digits isDecimal "integer" text with
    | .error fault =>
      .error { fault with expected := if text.head?.any isDecimal then ["digit"] else [] }
    | done => done

/-- The least number that an integer cannot hold. -/
def integerBound : Nat := 0x8000000000000000

/-- The integer with a sign and a size, before the rest of a document; the text is where it
starts. -/
def boundedInteger (text : List Char) (negative : Bool) (size : Nat) (rest : List Char) :
    Except TomlFault (TomlValue × List Char) :=
  if size < integerBound ∨ (negative ∧ size = integerBound) then
    .ok (.integer (if negative then -size else size), rest)
  else .error (.because text (.tooLarge negative))

/-- An integer of a base that is not ten, after its mark. -/
def basedInteger (base : Nat) (isDigit : Char → Bool) (label : String) (text : List Char) :
    Except TomlFault (TomlValue × List Char) := do
  let (found, rest) ← digits isDigit label text
  boundedInteger text false (numberOf base found) rest

/-- The digits of a fraction, if one follows. -/
def fractionPart : List Char → Except TomlFault (List Char × List Char)
  | '.' :: rest => digits isDecimal "floating-point number" rest
  | rest => .ok ([], rest)

/-- The exponent, if one follows. -/
def exponentPart : List Char → Except TomlFault (Option Int × List Char)
  | c :: rest =>
    if c = 'e' ∨ c = 'E' then do
      let (negative, rest) := signOf rest
      let (found, rest) ← digits isDecimal "floating-point number" rest
      .ok (some (if negative then -numberOf 10 found else numberOf 10 found), rest)
    else .ok (none, c :: rest)
  | [] => .ok (none, [])

/-- Whether a decimal number is too large for a fractional number: its digits, and the power of ten
they are multiplied by. -/
def overflows (found : List Char) (power : Int) : Bool :=
  let found := found.dropWhile (· = '0')
  let places := (found.length : Int) + power
  if found = [] ∨ places < 309 then false
  else if 309 < places then true
  else
    let scaled := if power < 0 then numberOf 10 found / Nat.pow 10 power.natAbs
      else numberOf 10 found * Nat.pow 10 power.natAbs
    Nat.pow 2 1024 - Nat.pow 2 970 ≤ scaled

/-- Digits with a point put in, so that a number of them stand after it. -/
def withPoint (found : List Char) (after : Nat) : List Char :=
  let padded := List.replicate (after + 1 - found.length) '0' ++ found
  padded.take (padded.length - after) ++ '.' :: padded.drop (padded.length - after)

/-- The written form of a fractional number without an exponent. -/
def floatText (negative : Bool) (found : List Char) (power : Int) : String :=
  let kept := (found.reverse.dropWhile (· = '0')).reverse.dropWhile (· = '0')
  let power := power + (found.length - (found.reverse.dropWhile (· = '0')).length : Nat)
  let body :=
    if kept = [] then ['0', '.', '0']
    else if 0 ≤ power then kept ++ List.replicate power.toNat '0' ++ ['.', '0']
    else withPoint kept power.natAbs
  String.ofList (if negative then '-' :: body else body)

/-- The number at the start of a text. -/
def number (text : List Char) : Except TomlFault (TomlValue × List Char) :=
  match text with
  | '0' :: 'x' :: rest =>
    basedInteger 16 (fun c => (Text.hexDigit? c).isSome) "hexadecimal integer" rest
  | '0' :: 'o' :: rest => basedInteger 8 (fun c => '0' ≤ c && c ≤ '7') "octal integer" rest
  | '0' :: 'b' :: rest => basedInteger 2 (fun c => c == '0' || c == '1') "binary integer" rest
  | _ =>
    let (negative, unsigned) := signOf text
    match unsigned with
    | 'i' :: 'n' :: 'f' :: rest => .ok (.float (if negative then "-inf" else "inf"), rest)
    | 'n' :: 'a' :: 'n' :: rest => .ok (.float "NaN", rest)
    | _ => do
      let (whole, rest) ← wholePart unsigned
      let (fraction, rest') ← fractionPart rest
      let (exponent, rest') ← exponentPart rest'
      if fraction = [] ∧ exponent = none then
        boundedInteger text negative (numberOf 10 whole) rest
      else
        let power := exponent.getD 0 - fraction.length
        if overflows (whole ++ fraction) power && !negative then
          .error (.before rest' (some "floating-point number") [])
        else .ok (.float (floatText negative (whole ++ fraction) power), rest')

/-! ## Dates and times -/

/-- The number that two digits make. -/
def twoDigits? : List Char → Option (Nat × List Char)
  | a :: b :: rest =>
    if isDecimal a && isDecimal b then some (numberOf 10 [a, b], rest) else none
  | _ => none

/-- Two digits that make a number between two bounds. -/
def ranged (low high : Nat) (label : String) (text : List Char) :
    Except TomlFault (Nat × List Char) :=
  match twoDigits? text with
  | none => .error (.before text (some label) [])
  | some (n, rest) =>
    if low ≤ n ∧ n ≤ high then .ok (n, rest)
    else .error ((TomlFault.because text .outOfRange).within label)

/-- A character that has to stand at the start of a text. -/
def sign (c : Char) (label : String) : List Char → Except TomlFault (Unit × List Char)
  | d :: rest => if c = d then .ok ((), rest) else .error (.before (d :: rest) (some label) [])
  | [] => .error (.before [] (some label) [])

/-- The days of a month. -/
def daysOf (year month : Nat) : Nat :=
  if month = 2 then
    if year % 4 = 0 ∧ (year % 100 ≠ 0 ∨ year % 400 = 0) then 29 else 28
  else if month = 4 ∨ month = 6 ∨ month = 9 ∨ month = 11 then 30
  else 31

/-- What follows the hour and its colon at the start of a text. -/
def afterHour? (text : List Char) : Option (List Char) :=
  match twoDigits? text with
  | some (hour, ':' :: rest) => if hour ≤ 23 then some rest else none
  | _ => none

/-- The rest of a time after the hour. -/
def restOfTime (rest : List Char) : Except TomlFault (Unit × List Char) := do
  let (_, rest) ← ranged 0 59 "date-time" rest
  let (_, rest) ← sign ':' "date-time" rest
  let (_, rest) ← ranged 0 60 "date-time" rest
  match rest with
  | '.' :: c :: after => if isDecimal c then .ok ((), after.dropWhile isDecimal) else .ok ((), rest)
  | _ => .ok ((), rest)

/-- The offset of a time, if one follows. -/
def offset (rest : List Char) : Except TomlFault (Unit × List Char) :=
  match rest with
  | c :: after =>
    if c = 'Z' ∨ c = 'z' then .ok ((), after)
    else if c = '+' ∨ c = '-' then do
      let (_, after) ← ranged 0 23 "time offset" after
      let (_, after) ← sign ':' "time offset" after
      let (_, after) ← ranged 0 59 "time offset" after
      .ok ((), after)
    else .ok ((), rest)
  | [] => .ok ((), rest)

/-- The time after a date, if one follows. -/
def timeOfDate (rest : List Char) : Except TomlFault (Unit × List Char) :=
  match rest with
  | c :: after =>
    if c = 'T' ∨ c = 't' ∨ c = ' ' then
      match afterHour? after with
      | some after => do
        let (_, after) ← restOfTime after
        offset after
      | none => .ok ((), rest)
    else .ok ((), rest)
  | [] => .ok ((), rest)

/-- What follows the year and its hyphen at the start of a text. -/
def afterYear? (text : List Char) : Option (Nat × List Char) :=
  match twoDigits? text with
  | some (century, rest) =>
    match twoDigits? rest with
    | some (year, '-' :: rest) => some (100 * century + year, rest)
    | _ => none
  | none => none

/-- The rest of a date after the year, with the time that may follow. -/
def restOfDate (year : Nat) (rest : List Char) : Except TomlFault (Unit × List Char) := do
  let (month, rest) ← ranged 1 12 "date-time" rest
  let (_, rest) ← sign '-' "date-time" rest
  let (day, after) ← ranged 1 31 "date-time" rest
  if daysOf year month < day then
    .error ((TomlFault.because rest .outOfRange).within "date-time")
  else timeOfDate after

/-- The date, time or number at the start of a text. -/
def numberOrMoment (text : List Char) : Except TomlFault (TomlValue × List Char) :=
  match afterYear? text with
  | some (year, rest) => (restOfDate year rest).map fun (_, rest) => (.moment, rest)
  | none =>
    match afterHour? text with
    | some rest => (restOfTime rest).map fun (_, rest) => (.moment, rest)
    | none => number text

end RemoteImports.Toml
