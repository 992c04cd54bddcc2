import RemoteImports.Script.Repair.Basic
import RemoteImports.Text.Size

/-!
# Steps of a repair

The two ways to mend a broken place. `Break.missingWay?` adds a token that could end what has begun.
`Break.wayBack?` throws away tokens from the place on, and as many of the parts before it as it
takes until the text can go on.
-/

namespace RemoteImports.Script

/-! ## A missing token -/

/-- Tokens that can be missing, with the names that they go by. -/
def missingTokens : List (String × String) :=
  [("x", "identifier"), ("\x7d", "\x7d"), (";", ";"), (")", ")"), ("]", "]")]

/-- Signs before which a name begins something rather than ends it. -/
def assigningSigns : List String :=
  ["=", "=>", "+=", "-=", "*=", "/=", "%=", "&=", "|=", "^=", "**=", "<<=", ">>=", ">>>=", "&&=",
    "||=", "??="]

/-- Words after which a name is declared, so that it does not end anything. -/
def namingWords : List String := ["function", "class", "interface", "enum", "namespace", "module"]

/-- Whether a token could end what has begun before a broken place. -/
def couldEnd (parts : List Part) (before : Option Token) (next : Option Token) (text : String) :
    Bool :=
  let innermost := parts.find? Part.isOpener
  match text with
  | "x" => !next.any (·.isAny assigningSigns) && !before.any (·.isAny namingWords)
  | ")" => innermost.any (·.isOpenerOf "(")
  | "]" => innermost.any (·.isOpenerOf "[")
  | "\x7d" => innermost.any fun p => p.isOpenerOf "\x7b" || p.isOpenerOf "$\x7b"
  | _ => !innermost.any fun p => p.isOpenerOf "(" || p.isOpenerOf "["

/-- The name of a missing token after the given one. -/
def missingName (before : Option Token) (name : String) : String :=
  if name = "identifier" && before.any (·.isAny [".", "?."]) then "property_identifier" else name

/-- The way with a missing token added at the broken place. -/
def Break.missingWay? (b : Break) (dialect : Dialect) : Option (String × Way) :=
  let before := b.draft.tokens.take b.index
  let rest := b.draft.tokens.drop b.index
  let last := before.getLast?
  let start := (last.map Token.stop).getD 0
  missingTokens.findSome? fun (text, name) =>
    let added : Token := ⟨if text = "x" then [' '] else [], text.toList, start⟩
    let tokens := before ++ [added]
    let next := rest.head?
    let fits := couldEnd b.parts last next text &&
      b.admits dialect tokens ((next.map Next.token).getD .finish) false
    if fits then
      let flaw : Flaw := ⟨some (missingName last name), start, start, b.index⟩
      let mended : Draft :=
        ⟨tokens ++ (rest.take 1).map (·.loosened false) ++ rest.drop 1,
          b.draft.price + Price.missing, b.draft.flaws ++ [flaw]⟩
      some (text, if rest.isEmpty then ⟨mended, 0, none, b.index + 1⟩
        else .ofDraft dialect b.settled mended 0 (b.index + 1))
    else none

/-! ## Throwing away -/

/-- The price of throwing away a stretch of text that counts for some parts. -/
def stretchPrice (source : List Char) (start stop parts : Nat) : Nat :=
  let text := (source.drop start).take (stop - start)
  Price.recovery + Text.byteSize text + Price.part * parts +
    Price.line * text.count '\n'

/-- The draft without the tokens from one index up to another, which count for some parts. What was
thrown away right before it becomes one with it. -/
def Draft.without (draft : Draft) (source : List Char) (first last parts : Nat) (line : Bool) :
    Draft :=
  let removed := (draft.tokens.take last).drop first
  let start := (removed.head?.map Token.start).getD 0
  let stop := (removed.getLast?.map Token.stop).getD start
  let (joined, kept) := draft.flaws.partition fun f => f.missing.isNone && f.place = first
  let start := (joined.map Flaw.start).foldl min start
  let saved := Price.recovery * joined.length
  ⟨draft.tokens.take first ++ ((draft.tokens.drop last).take 1).map (·.loosened line) ++
      draft.tokens.drop (last + 1),
    draft.price + stretchPrice source start stop parts - saved,
    kept.filter (·.place < first) ++ [⟨none, start, stop, first⟩]⟩

/-- The signs that end or go on with the value before them. -/
def closingSigns : List String :=
  [";", ",", ")", "]", "\x7d", ":", ".", "?.", "?", "+", "-", "*", "/", "%", "==", "===", "!=",
    "!==", "&&", "||", "??", "&", "|", "^", "<", ">", "<=", ">=", "<<", ">>", ">>>"]

/-- Whether a semicolon would have been put in after an offset. -/
def endsAt (dialect : Dialect) (source : List Char) (offset : Nat) : Bool :=
  Semicolon.endsHere ⟨dialect.hasTypes, true, false⟩ (source.drop offset)

/-- The signs between the operands of one expression. -/
def joiningSigns : List String :=
  assigningSigns.filter (· ≠ "=>") ++
    ["+", "-", "*", "/", "%", "**", "==", "===", "!=", "!==", "&&", "||", "??", "&", "|", "^", "<",
      ">", "<=", ">=", "<<", ">>", ">>>"]

/-- How much some parts count for, last ones first. The operands and signs at the end are one
expression. -/
def weightOf : List Part → Nat
  | p :: q :: rest@(r :: _) =>
    if p.kind = .operand && joiningSigns.any (q.text = ·.toList) && r.kind = .operand then
      weightOf rest
    else p.weight + q.weight + Part.totalWeight rest
  | parts => Part.totalWeight parts

/-- The nearest way back: the parts from the last one on are given up until what comes next may
follow. Nothing has to be given up if tokens were skipped; `allowed` says whether a way with a price
is worth trying. -/
def Break.wayBack? (b : Break) (dialect : Dialect) (source : List Char) (last : Nat)
    (allowed : Nat → Bool) : Nat → List Part → List Part → Nat → Option Draft
  | 0, _, _, _ => none
  | depth + 1, given, parts, first =>
    let next := match b.draft.tokens[last]? with
      | some t => Next.token t
      | none => Next.finish
    let kept := b.draft.tokens.take first
    let line := kept.getLast?.any fun t => endsAt dialect source t.stop
    if first < last && b.admits dialect kept next line then
      let mended := b.draft.without source first last (weightOf given + (last - b.index)) line
      if allowed mended.price then some mended else none
    else
      match parts with
      | [] => none
      | p :: rest => b.wayBack? dialect source last allowed depth (given ++ [p]) rest p.first

/-- How many parts a way back gives up at most. -/
def depthLimit : Nat := 16

end RemoteImports.Script
