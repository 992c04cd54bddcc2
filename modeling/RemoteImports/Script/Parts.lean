import RemoteImports.Script.Program
import RemoteImports.Script.Token

/-!
# Parts of an unfinished text

A text that can still be continued to one that keeps to the grammar is a sequence of parts: finished
pieces, such as a call or the statements of a block so far, and what has begun but is not finished.
When a text breaks the grammar, what is thrown away are whole parts. The parts are found from the
brackets, the places where statements end, and the chains of members and calls.
-/

namespace RemoteImports.Script

/-! ## What may follow -/

/-- What the text of some tokens may be followed by. -/
inductive Next
  | token (t : Token)
  /-- The end of the text, or the start of a statement. -/
  | finish
  deriving DecidableEq, Inhabited, Repr

/-- Whether a text can be continued by a rule of the grammar past its end. -/
def canGoOn (dialect : Dialect) (text : List Char) : Bool :=
  match reading dialect (text ++ [' ']) with
  | .ok _ => true
  | .error reach => text.length < reach

/-- Whether a token may follow the text of some tokens, on a new line or on the same one. -/
def admitsToken (dialect : Dialect) (ts : List Token) (t : Token) (line : Bool) : Bool :=
  canGoOn dialect (textOf ts ++ (if line then '\n' else ' ') :: t.text)

/-- A token with nothing known about its place. -/
def Token.of (text : String) : Token := ⟨[], text.toList, 0⟩

/-- Whether a closing brace may follow the text of some tokens, and is not only taken for the end of
a statement that lacks its semicolon. -/
def admitsBrace (dialect : Dialect) (ts : List Token) (t : Token) (line : Bool) : Bool :=
  admitsToken dialect ts t line &&
    (!admitsToken dialect ts (.of ";") false || admitsToken dialect ts (.of "x") line)

/-- Whether something may follow the text of some tokens, on a new line or on the same one. -/
def admits (dialect : Dialect) (ts : List Token) (next : Next) (line : Bool) : Bool :=
  match next with
  | .token t =>
    if t.is "\x7d" then admitsBrace dialect ts t line else admitsToken dialect ts t line
  | .finish =>
    (read? dialect (textOf ts)).isSome && admitsToken dialect ts (.of "x") line

/-! ## Parts -/

/-- What a part of an unfinished text is. -/
inductive PartKind
  /-- A bracket that is not closed. -/
  | opener
  /-- Something that a member, an index or arguments can follow. -/
  | operand
  /-- The dot of a member. -/
  | dot
  /-- Finished statements. -/
  | statements
  | other
  deriving DecidableEq, Inhabited, Repr

/-- A part of an unfinished text. -/
structure Part where
  kind : PartKind
  /-- The index of its first token. -/
  first : Nat
  /-- The text of its first token. -/
  text : List Char
  /-- The number of nodes that it counts for. -/
  weight : Nat
  deriving DecidableEq, Inhabited, Repr

namespace Part

/-- Words that are no operands. -/
def statementWords : List String :=
  ["return", "typeof", "instanceof", "in", "new", "delete", "void", "throw", "case", "do", "else",
    "if", "for", "while", "switch", "catch", "with", "function", "class", "const", "var", "try",
    "finally", "default", "extends"]

/-- The number of nodes that some parts count for. -/
def totalWeight : List Part → Nat
  | [] => 0
  | p :: rest => p.weight + totalWeight rest

/-- Whether a part is an open bracket. -/
def isOpener (p : Part) : Bool := p.kind = .opener

/-- Whether a part is the given token alone. -/
def isOpenerOf (p : Part) (text : String) : Bool := p.isOpener && p.text = text.toList

/-- The parts with one that belongs to the operand before it, if there is one. -/
def attach (p : Part) : List Part → List Part
  | q :: rest => if q.kind = .operand then q :: rest else p :: q :: rest
  | [] => [p]

/-- The parts after a closing bracket. Arguments and indices belong to the operand before them. -/
def close (closer : Token) (parts : List Part) : List Part :=
  match parts.dropWhile (!·.isOpener) with
  | [] => parts
  | opening :: rest =>
    let group : Part := ⟨.operand, opening.first, opening.text, 1⟩
    if closer.is "\x7d" then group :: rest else group.attach rest

/-- The parts after a word. -/
def word (index : Nat) (t : Token) : List Part → List Part
  | ⟨.dot, _, _, _⟩ :: q :: rest => q :: rest
  | parts => ⟨if t.isAny statementWords then .other else .operand, index, t.text, 1⟩ :: parts

/-- The parts with those since the last open bracket put together as finished statements. -/
def endStatement (parts : List Part) : List Part :=
  let inner := parts.takeWhile (!·.isOpener)
  match inner.getLast? with
  | none => parts
  | some oldest =>
    let kept := if oldest.kind = .statements then oldest.weight else 0
    ⟨.statements, oldest.first, oldest.text, kept + 1⟩ :: parts.drop inner.length

/-- Whether a token is an open bracket. -/
def opens (t : Token) : Bool := t.isAny ["(", "[", "\x7b", "$\x7b"]

/-- Whether a token is a closing bracket. -/
def closes (t : Token) : Bool := t.isAny [")", "]", "\x7d"]

/-- The parts after a token. Last parts come first. -/
def step (index : Nat) (t : Token) (parts : List Part) : List Part :=
  let innermost := parts.find? isOpener
  if opens t then ⟨.opener, index, t.text, 1⟩ :: parts
  else if closes t then close t parts
  else if t.is "\x60" then
    if innermost.any (·.isOpenerOf "\x60") then close t parts
    else ⟨.opener, index, t.text, 1⟩ :: parts
  else if t.isAny ["++", "--"] && parts.head?.any (·.kind = .operand) then parts
  else if t.isAny [".", "?."] then
    match parts with
    | ⟨.operand, _, _, _⟩ :: _ => ⟨.dot, index, t.text, 1⟩ :: parts
    | _ => ⟨.other, index, t.text, 1⟩ :: parts
  else if t.is ";" && !innermost.any (·.isOpenerOf "(") then
    endStatement (⟨.other, index, t.text, 1⟩ :: parts)
  else if t.isWord then word index t parts
  else if Token.endsOperand t.text then ⟨.operand, index, t.text, 1⟩ :: parts
  else ⟨.other, index, t.text, 1⟩ :: parts

/-- For each of some tokens, whether it is inside of brackets that are closed later; and how many
brackets are closed that were not opened. -/
def sheltered (ts : List Token) : List Bool × Nat :=
  ts.foldr (fun t (flags, closers) =>
    (decide (0 < closers) :: flags,
      if closes t then closers + 1 else if opens t then closers - 1 else closers)) ([], 0)

/-- A text that is read from the front. -/
structure Progress where
  /-- The parts so far, last ones first. -/
  parts : List Part
  /-- The tokens of the statement that is not finished, of those outside of all brackets. -/
  current : List Token
  /-- How many tokens were read. -/
  count : Nat
  deriving Inhabited, Repr

namespace Progress

/-- The number of tokens of finished statements outside of all brackets. -/
def settled (p : Progress) : Nat := p.count - p.current.length

/-- The statements so far are finished. -/
def finish (p : Progress) : Progress :=
  let parts := endStatement p.parts
  { p with parts, current := if parts.any isOpener then p.current else [] }

/-- Whether the statement so far ends before a token on a new line, which could not follow on the
same line. -/
def endsBefore (p : Progress) (dialect : Dialect) (t : Token) : Bool :=
  t.startsLine && p.parts.head?.any (·.kind = .operand) && !admitsToken dialect p.current t false

/-- Whether the statement so far ends with its closing brace: a name may follow on the same line. -/
def endsAfter (p : Progress) (dialect : Dialect) (t : Token) : Bool :=
  t.is "\x7d" && admitsToken dialect p.current (.of "x") false

/-- One more token, which may be inside of brackets that are closed later. -/
def read (dialect : Dialect) (p : Progress) (next : Token × Bool) : Progress :=
  let (t, inner) := next
  let p := if !inner && p.endsBefore dialect t then p.finish else p
  let p : Progress := ⟨step p.count t p.parts, p.current ++ [t], p.count + 1⟩
  if t.is ";" && !p.parts.any isOpener then { p with current := [] }
  else if !inner && p.endsAfter dialect t then p.finish
  else p

end Progress

/-- The text of some tokens, read from the front. -/
def progress (dialect : Dialect) (ts : List Token) : Progress :=
  (ts.zip (sheltered ts).1).foldl (Progress.read dialect) ⟨[], [], 0⟩

end Part

end RemoteImports.Script
