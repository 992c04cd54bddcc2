import RemoteImports.Script.Parts

/-!
# Drafts of a repair

What a repair works on. A `Draft` is the text on its way to being mended: its tokens, what the steps
so far cost, and the flaws they leave. A `Break` is a place where the next token cannot follow, with
the parts that stand before it. A `Way` is a draft after one more step, together with how far it
goes before it breaks again.
-/

namespace RemoteImports.Script

/-! ## Prices -/

namespace Price

/-- The price of throwing something away. -/
def recovery : Nat := 500

/-- The price of a token that is missing. -/
def missing : Nat := 610

/-- The price of each part that is thrown away. -/
def part : Nat := 100

/-- The price of each line end inside of what is thrown away. -/
def line : Nat := 30

/-- How much dearer a way may be in all. -/
def patience : Nat := 1800

end Price

/-! ## Flaws and drafts -/

/-- A place that a repair touched. -/
structure Flaw where
  /-- The token that was added; otherwise text was thrown away. -/
  missing : Option String
  start : Nat
  stop : Nat
  /-- The number of tokens of the draft before it. -/
  place : Nat
  deriving DecidableEq, Inhabited, Repr

/-- A text on its way to being mended. -/
structure Draft where
  tokens : List Token
  price : Nat
  flaws : List Flaw
  deriving Inhabited, Repr

/-- A draft after a step that mends a broken place. Tokens are counted from the broken place on. -/
structure Way where
  draft : Draft
  /-- How many tokens the step threw away. -/
  since : Nat
  /-- The next token that cannot follow; none if the draft is mended. -/
  breaks : Option Nat
  /-- The index in the draft of the first token after the step. -/
  held : Nat
  deriving Inhabited, Repr

/-- The number of tokens whose text ends at or before an offset, in the text of some tokens. -/
def tokensWithin (reach : Nat) : Nat → List Token → Nat
  | _, [] => 0
  | before, t :: rest =>
    let stop := before + t.gap.length + t.text.length
    if stop ≤ reach then tokensWithin reach stop rest + 1 else 0

/-- The index of the first token that cannot follow the ones before it. The first tokens may be
finished statements, which need not be read again. -/
def breakOf? (dialect : Dialect) (settled : Nat) (ts : List Token) : Option Nat :=
  let current := ts.drop settled
  match reading dialect (textOf current) with
  | .ok _ => none
  | .error reach => some (settled + tokensWithin reach 0 current)

namespace Way

/-- The way that a draft goes on. -/
def ofDraft (dialect : Dialect) (settled : Nat) (draft : Draft) (since held : Nat) : Way :=
  let breaks := (breakOf? dialect (min settled held) draft.tokens).map fun index =>
    since + (index - held)
  ⟨draft, since, breaks, held⟩

/-- The index in the draft of the next token that cannot follow. -/
def brokenAt? (w : Way) : Option Nat := w.breaks.map fun count => w.held + (count - w.since)

/-- The number of tokens that a way takes before it breaks again. -/
def taken (w : Way) : Nat :=
  match w.breaks with
  | some count => count - w.since
  | none => w.draft.tokens.length - w.held

/-- Whether a way is on before the token with a number, and can take the token before it. -/
def reaches (w : Way) (count : Nat) : Bool := w.since ≤ count && w.breaks.all (count ≤ ·)

/-- Whether a way is on before the token with a number, and can take it. -/
def passes (w : Way) (count : Nat) : Bool := w.since ≤ count && w.breaks.all (count < ·)

/-- Whether a way makes one with a price not worth trying, after it took some nodes. -/
def dismisses (w : Way) (price nodes : Nat) : Bool :=
  w.draft.price < price && Price.patience < (price - w.draft.price) * (1 + nodes)

end Way

/-! ## Broken places -/

/-- A broken place. -/
structure Break where
  draft : Draft
  /-- The index of the token that cannot follow. -/
  index : Nat
  /-- The parts before it, last ones first. -/
  parts : List Part
  /-- The number of tokens of finished statements before it. -/
  settled : Nat
  deriving Inhabited, Repr

/-- The broken place of a draft at a token. -/
def Break.ofDraft (dialect : Dialect) (draft : Draft) (index : Nat) : Break :=
  let progress := Part.progress dialect (draft.tokens.take index)
  ⟨draft, index, progress.parts, progress.settled⟩

/-- Whether something may follow the first tokens of a broken text, on a new line or on the same
one. -/
def Break.admits (b : Break) (dialect : Dialect) (kept : List Token) (next : Next) (line : Bool) :
    Bool :=
  Script.admits dialect (if b.settled ≤ kept.length then kept.drop b.settled else kept) next line

end RemoteImports.Script
