import RemoteImports.Glob.Fault

/-!
# Path patterns

A pattern is a list of tokens: characters, wildcards, character classes, groups of alternatives, and
the three forms of a double star that stands for whole components. `Glob.parse` reads a pattern; it
remembers the character before, because a double star is special only between slashes.
-/

namespace RemoteImports

/-- A part of a pattern. -/
inductive GlobToken
  | literal (c : Char)
  /-- A question mark: one byte. -/
  | any
  /-- A star: any bytes. -/
  | star
  /-- A double star before a slash at the start: any directories. -/
  | anyPrefix
  /-- A slash with a double star at the end: everything below. -/
  | anySuffix
  /-- A double star between slashes: any directories on the way. -/
  | anyBetween
  /-- One byte of a set, or one that is not in it. -/
  | class (negated : Bool) (ranges : List (Char × Char))
  /-- One of several patterns. -/
  | alternates (branches : List (List GlobToken))
  deriving Inhabited, Repr

namespace Glob

/-- A list of ranges, last first, with the end of the last one moved. -/
def extendRange (ranges : List (Char × Char)) (last : Char) :
    Except GlobFault (List (Char × Char)) :=
  match ranges with
  | [] => .ok []
  | (first, _) :: rest =>
    if last < first then .error (.invalidRange first last) else .ok ((first, last) :: rest)

/-- The ranges of a character class, last first, and what follows its closing bracket; nothing if
the class is not closed. A bracket or hyphen that comes first stands for itself. -/
def classRanges (isFirst isRange : Bool) (ranges : List (Char × Char)) :
    List Char → Except GlobFault (Option (List (Char × Char) × List Char))
  | [] => .ok none
  | c :: rest =>
    if c = ']' ∧ !isFirst then .ok (some (if isRange then ('-', '-') :: ranges else ranges, rest))
    else if c = '-' ∧ !isFirst ∧ !isRange then classRanges false true ranges rest
    else if isRange then
      match extendRange ranges c with
      | .ok ranges => classRanges false false ranges rest
      | .error fault => .error fault
    else classRanges false false ((c, c) :: ranges) rest

/-- The character class after an opening bracket, and what follows it. -/
def charClass (text : List Char) : Except GlobFault (Option (GlobToken × List Char)) :=
  let negated := text.head? = some '!' ∨ text.head? = some '^'
  (classRanges true false [] (if negated then text.tail else text)).map fun found =>
    found.map fun (ranges, rest) => (.class negated ranges.reverse, rest)

/-- A pattern that is being read. -/
structure Draft where
  /-- The last character that was read. -/
  before : Option Char
  /-- Whether an opening bracket stands for itself from now on. -/
  plainBrackets : Bool
  /-- The groups around the place that is being read, innermost first: their finished alternatives
  and the one the inner group stands in, all last first. -/
  outer : List (List (List GlobToken) × List GlobToken)
  /-- The finished alternatives of the innermost group, last first. -/
  branches : List (List GlobToken)
  /-- The tokens of the current alternative, last first. -/
  tokens : List GlobToken
  deriving Inhabited

namespace Draft

/-- A draft after a token that ends in a character. -/
def push (d : Draft) (token : GlobToken) (last : Char) : Draft :=
  { d with tokens := token :: d.tokens, before := some last }

/-- A draft after a character that stands for itself. -/
def literal (d : Draft) (c : Char) : Draft := d.push (.literal c) c

/-- A draft after two plain stars. -/
def twoStars (d : Draft) : Draft := (d.push .star '*').push .star '*'

/-- A draft after an opening brace. -/
def openGroup (d : Draft) : Draft :=
  { d with
    before := some '\x7b'
    outer := (d.branches, d.tokens) :: d.outer
    branches := []
    tokens := [] }

/-- A draft after a comma. Outside of groups it stands for itself. -/
def comma (d : Draft) : Draft :=
  if d.outer = [] then d.literal ','
  else { d with before := some ',', branches := d.tokens.reverse :: d.branches, tokens := [] }

/-- A draft after a closing brace. -/
def closeGroup (d : Draft) : Except GlobFault Draft :=
  match d.outer with
  | [] => .error .unopenedGroup
  | (branches, tokens) :: outer =>
    .ok { d with
      before := some '\x7d'
      outer
      branches
      tokens := .alternates (d.tokens.reverse :: d.branches).reverse :: tokens }

/-- Whether a double star after what was read can be special: after a slash, or at the start of an
alternative. -/
def startsComponent (d : Draft) : Bool :=
  d.before == some '/' || (!d.outer.isEmpty && (d.before == some ',' || d.before == some '\x7b'))

/-- A draft in which a double star takes the place of the slash before it. -/
def replaceSlash (d : Draft) (token : GlobToken) (last : Char) : Draft :=
  match d.tokens with
  | .anyPrefix :: _ | .anySuffix :: _ => { d with before := some last }
  | tokens => { d with before := some last, tokens := token :: tokens.drop 1 }

/-- A draft after a double star, and what is left to read. -/
def doubleStar (d : Draft) (rest : List Char) : Draft × List Char :=
  if d.tokens = [] then
    match rest with
    | [] => (d.push .anyPrefix '*', [])
    | '/' :: rest => (d.push .anyPrefix '/', rest)
    | rest => (d.twoStars, rest)
  else if d.startsComponent then
    match rest with
    | [] => (d.replaceSlash .anySuffix '*', [])
    | '/' :: rest => (d.replaceSlash .anyBetween '/', rest)
    | c :: rest =>
      if (c = ',' ∨ c = '\x7d') ∧ d.outer ≠ [] then (d.replaceSlash .anySuffix '*', c :: rest)
      else (d.twoStars, c :: rest)
  else (d.twoStars, rest)

/-- The tokens of a pattern, all of whose groups have to be closed. -/
def finish (d : Draft) : Except GlobFault (List GlobToken) :=
  if d.outer = [] then .ok d.tokens.reverse else .error .unclosedGroup

end Draft

/-- The tokens of the rest of a pattern. A class that is not closed is a fault, unless its bracket
may stand for itself. The bound is on the characters that are left. -/
def parseWithin (allowOpenClass : Bool) :
    Nat → Draft → List Char → Except GlobFault (List GlobToken)
  | 0, d, _ => d.finish
  | bound + 1, d, text =>
    match text with
    | [] => d.finish
    | '?' :: rest => parseWithin allowOpenClass bound (d.push .any '?') rest
    | '*' :: '*' :: rest =>
      let (d, rest) := d.doubleStar rest
      parseWithin allowOpenClass bound d rest
    | '*' :: rest => parseWithin allowOpenClass bound (d.push .star '*') rest
    | '\x7b' :: rest => parseWithin allowOpenClass bound d.openGroup rest
    | '\x7d' :: rest => do parseWithin allowOpenClass bound (← d.closeGroup) rest
    | ',' :: rest => parseWithin allowOpenClass bound d.comma rest
    | '\\' :: [] => .error .danglingEscape
    | '\\' :: c :: rest => parseWithin allowOpenClass bound (d.literal c) rest
    | '[' :: rest =>
      if d.plainBrackets then parseWithin allowOpenClass bound (d.literal '[') rest
      else do
        match ← charClass rest with
        | some (token, rest) => parseWithin allowOpenClass bound (d.push token ']') rest
        | none =>
          if allowOpenClass then
            parseWithin allowOpenClass bound { d.literal '[' with plainBrackets := true } rest
          else .error .unclosedClass
    | c :: rest => parseWithin allowOpenClass bound (d.literal c) rest

/-- The tokens of a pattern. -/
def parse (allowOpenClass : Bool) (pattern : String) : Except GlobFault (List GlobToken) :=
  parseWithin allowOpenClass (pattern.toList.length + 1) ⟨none, false, [], [], []⟩ pattern.toList

end Glob

end RemoteImports
