/-!
# Automatic semicolons

Where a statement may end without a semicolon. The rule looks at the text right after the last token
of a statement: a closing brace or the end of the text ends it, and so does a line feed, unless the
next line starts with something that can only go on with the statement. The typed dialects and the
plain one judge comments on the same line differently; `endsHere` holds both rules.

A comment between the end of a statement and the place that the rule accepts belongs to the
statement.
-/

namespace RemoteImports.Script.Semicolon

/-- What may follow a place where a statement could end. -/
structure Follow where
  /-- Whether the dialect has types. -/
  typed : Bool
  /-- Whether a binary operator may follow. -/
  operators : Bool
  /-- Whether the body of a function may follow. -/
  body : Bool
  deriving DecidableEq, Inhabited, Repr

/-- A blank of ASCII. -/
def isSpace (c : Char) : Bool := (9 ≤ c.toNat && c.toNat ≤ 13) || c == ' '

/-- A character that ends a line. -/
def isLineEnd (c : Char) : Bool := c == '\n' || c.toNat == 0x2028 || c.toNat == 0x2029

/-- What follows a block comment, and whether the comment holds a line end. The text starts inside
the comment. -/
def afterBlock : List Char → Bool → Bool × List Char
  | [], broken => (broken, [])
  | '*' :: '/' :: rest, broken => (broken, rest)
  | c :: rest, broken => afterBlock rest (broken || isLineEnd c)

/-- How a run over blanks and comments ended. -/
inductive Run
  /-- At a slash that starts no comment. -/
  | refused
  /-- After a block comment on one line. -/
  | sameLine
  /-- Before something else, or after a block comment of several lines. -/
  | passed
  deriving DecidableEq, Inhabited, Repr

/-- A run over blanks and comments. With `whole` it passes every block comment; otherwise it stops
after the first one that no slash follows. -/
def run (whole : Bool) : Nat → Bool → List Char → Run × List Char
  | 0, _, text => (.passed, text)
  | fuel + 1, broken, text =>
    match text.dropWhile isSpace with
    | '/' :: '/' :: rest => run whole fuel broken (rest.dropWhile fun c => !isLineEnd c)
    | '/' :: '*' :: rest =>
      match afterBlock rest broken with
      | (broken, '/' :: rest) => run whole fuel broken ('/' :: rest)
      | (broken, rest) =>
        if whole then run whole fuel broken rest
        else (if broken then .passed else .sameLine, rest)
    | '/' :: rest => (.refused, rest)
    | rest => (.passed, rest)

/-- Whether a word starts with an ASCII letter. -/
def startsWithLetter : List Char → Bool
  | c :: _ => c.isAlpha
  | [] => false

/-- Whether the rest of a word that began with the letter of `in` and `instanceof` is another
word. -/
def otherThanIn : List Char → Bool
  | 'n' :: rest =>
    startsWithLetter rest &&
      match rest with
      | 's' :: 't' :: 'a' :: 'n' :: 'c' :: 'e' :: 'o' :: 'f' :: rest => startsWithLetter rest
      | _ => true
  | _ => true

/-- Whether a statement may end before the start of a later line. -/
def mayEndBefore (follow : Follow) : List Char → Bool
  | [] => true
  | c :: rest =>
    match c with
    | '\u0060' | ',' | ':' | ';' | '*' | '%' | '>' | '<' | '=' | '?' | '^' | '|' | '&' | '/' =>
      false
    | '.' => if follow.typed then false else rest.head?.any Char.isDigit
    | '{' => !(follow.typed && follow.body)
    | '(' | '[' => follow.typed && !follow.operators
    | '+' => rest.head? == some '+'
    | '-' => rest.head? == some '-'
    | '!' => rest.head? != some '='
    | 'i' => otherThanIn rest
    | _ => true

/-- Whether a statement may end before a line end and what follows it. -/
def mayEndAfterLine (follow : Follow) (rest : List Char) : Bool :=
  match run true (rest.length + 1) false rest with
  | (.refused, _) => false
  | (_, next) => mayEndBefore follow next

/-- The rule of the plain dialect. Comments on the same line are looked through: where no operator
may follow, a statement ends before them. -/
def endsPlain (follow : Follow) : Nat → List Char → Bool
  | 0, _ => false
  | _ + 1, [] => true
  | fuel + 1, text@(first :: _) =>
    let (verdict, text) :=
      if first = '/' then run false (fuel + 1) false text else (.sameLine, text)
    if verdict = .refused then false
    else if first = '/' && verdict = .passed && !follow.operators &&
        text.head? != some ',' && text.head? != some '=' then true
    else
      match text with
      | [] => false
      | '}' :: _ => true
      | c :: rest =>
        if isLineEnd c then mayEndAfterLine follow rest
        else if isSpace c then endsPlain follow fuel rest
        else false

/-- The rule of the typed dialects. A comment on the same line hides what follows it, and a closing
brace before a colon is the end of a pattern. -/
def endsTyped (follow : Follow) : List Char → Bool
  | [] => true
  | '}' :: rest => (rest.dropWhile isSpace).head? != some ':' || follow.operators
  | c :: rest =>
    if c = '\n' then mayEndAfterLine follow rest
    else if isSpace c then endsTyped follow rest
    else false

/-- Whether a statement may end here without a semicolon. -/
def endsHere (follow : Follow) (text : List Char) : Bool :=
  if text.head? = some '\x00' then true
  else if follow.typed then endsTyped follow text
  else endsPlain follow (text.length + 1) text

end RemoteImports.Script.Semicolon
