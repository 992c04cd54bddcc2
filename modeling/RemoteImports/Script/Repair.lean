import RemoteImports.Script.Repair.Step

/-!
# Repairs

How a text that breaks the grammar is mended. At the token that cannot follow, a repair either adds
a token that is missing, or throws away parts before it and tokens from it on until the text can go
on. Each way has a price; a way is given up where another one that still goes on is clearly cheaper,
and of those that are left the cheapest in all wins, the later one of two that cost the same.

A repair is only made to say where the text is broken: `flawsOf` lists the places that it touched.
-/

namespace RemoteImports.Script

/-! ## The search -/

namespace Break

/-- The number of tokens from the broken place on. -/
def ahead (b : Break) : Nat := b.draft.tokens.length - b.index

/-- The price of a draft that skipped some tokens and has not found a way on. -/
def skipPrice (b : Break) (source : List Char) (skipped : Nat) : Nat :=
  match b.draft.tokens[b.index]?, b.draft.tokens[b.index + skipped - 1]? with
  | some first, some last =>
    b.draft.price +
      if skipped = 0 then Price.recovery else stretchPrice source first.start last.stop skipped
  | _, _ => b.draft.price + Price.recovery

/-- The ways on from a broken place: those that are known, then those that throw something away,
with more and more tokens skipped. Skipping stops where a way that is known is cheaper and still
goes on. Also gives the number of tokens that were skipped. -/
def waysBack (b : Break) (dialect : Dialect) (source : List Char) (merges : Bool) :
    Nat → Nat → List Way → List Way × Nat
  | 0, skipped, ways => (ways, skipped)
  | limit + 1, skipped, ways =>
    let last := b.index + skipped
    let active := ways.filter (·.reaches skipped)
    let price := b.skipPrice source skipped
    if skipped ≠ 0 && active.any (·.draft.price < price) then (ways, skipped - 1)
    else
      let allowed (price : Nat) : Bool := !active.any fun w => w.dismisses price (2 * w.taken)
      let found := if merges && skipped = 0 then none else
        b.wayBack? dialect source last allowed (depthLimit + 1) [] b.parts b.index
      let heldOf (mended : Draft) : Nat :=
        mended.tokens.length - (b.draft.tokens.length - last)
      if skipped < b.ahead then
        let found := found.toList.map fun mended =>
          Way.ofDraft dialect b.settled mended skipped (heldOf mended)
        waysBack b dialect source merges limit (skipped + 1) (ways ++ found)
      else
        let weight := Part.totalWeight b.parts + skipped
        let all := b.draft.without source 0 last weight false
        let found := (found.toList ++ [all]).map fun mended =>
          (⟨mended, skipped, none, heldOf mended⟩ : Way)
        (ways ++ found, skipped)

/-- The ways on from a broken place, and the number of tokens that were skipped to find them. -/
def waysOn (b : Break) (dialect : Dialect) (source : List Char) : List Way × Nat :=
  let added := b.missingWay? dialect
  let merges := added.any (·.1 ≠ ";") &&
    (b.draft.tokens[b.index]?).any (·.isAny closingSigns)
  b.waysBack dialect source merges (b.ahead + 1) 0 (added.toList.map (·.2))

/-- Whether a way that breaks is dropped there for another way or for skipping on. -/
def drops (b : Break) (source : List Char) (ways : List Way) (skipped : Nat) (number : Nat)
    (w : Way) : Bool :=
  match w.breaks with
  | none => false
  | some count =>
    let limit := w.draft.price + Price.recovery + Price.part
    (ways.zipIdx.any fun (other, i) =>
      let price := other.draft.price
      (other.passes count && price < limit) ||
        (other.breaks = some count &&
          (price < w.draft.price || (price = w.draft.price && i < number)))) ||
    (count < skipped && b.skipPrice source (count + 1) < limit)

/-- The ways that are followed from a broken place. -/
def followed (b : Break) (dialect : Dialect) (source : List Char) : List Way :=
  let (ways, skipped) := b.waysOn dialect source
  (ways.zipIdx.filter fun (w, i) =>
    !b.drops source ways skipped i w &&
      !ways.any fun other => other.dismisses w.draft.price (2 * other.taken)).map (·.1)

end Break

/-- The cheaper of two mended drafts, the second one if they cost the same. -/
def cheaper (a b : Draft) : Draft := if a.price < b.price then a else b

/-- The cheapest mended draft that a draft leads to, following it through a number of broken
places. -/
def mend (dialect : Dialect) (source : List Char) : Nat → Draft → Option Nat → Draft
  | _, draft, none => draft
  | 0, draft, some _ => { draft with price := draft.price + Price.recovery }
  | rounds + 1, draft, some index =>
    let mended := ((Break.ofDraft dialect draft index).followed dialect source).map fun w =>
      mend dialect source rounds w.draft w.brokenAt?
    match mended with
    | [] => draft
    | first :: rest => rest.foldl cheaper first

/-- How many broken places a search follows. -/
def roundLimit : Nat := 4

/-- The places that a repair of a text touches, in reading order. -/
def flawsOf (dialect : Dialect) (source : List Char) : List Flaw :=
  let tokens := Token.ofText source
  let mended := mend dialect source roundLimit ⟨tokens, 0, []⟩ (breakOf? dialect 0 tokens)
  mended.flaws.mergeSort fun a b => a.start ≤ b.start

end RemoteImports.Script
