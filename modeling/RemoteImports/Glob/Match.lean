import RemoteImports.Glob
import RemoteImports.OsString

/-!
# Matching paths

When a pattern matches a path. Both are seen as bytes: a question mark, a class and a star count
bytes of the path. With `components` set, wildcards stop at slashes. `matchToken` has one
equation for each token, with the match of what follows as its last part.
-/

namespace RemoteImports.Glob

open OsString (slash)

/-- Whether a text starts with some bytes and what follows them passes a test. -/
def startsWith (next : List UInt8 → Bool) : List UInt8 → List UInt8 → Bool
  | [], s => next s
  | _ :: _, [] => false
  | b :: bytes, c :: s => b == c && startsWith next bytes s

/-- Whether what is left after some allowed bytes passes a test. -/
def afterSome (allowed : UInt8 → Bool) (next : List UInt8 → Bool) : List UInt8 → Bool
  | [] => next []
  | b :: s => next (b :: s) || (allowed b && afterSome allowed next s)

/-- Whether what is left after a slash passes a test. -/
def afterSlash (next : List UInt8 → Bool) : List UInt8 → Bool
  | [] => false
  | b :: s => (b == slash && next s) || afterSlash next s

/-- Whether a text starts with a slash and what follows passes a test. -/
def onSlash (next : List UInt8 → Bool) : List UInt8 → Bool
  | [] => false
  | b :: s => b == slash && next s

/-- Whether a byte lies between two bytes. -/
def isBetween (first last b : UInt8) : Bool := first ≤ b && b ≤ last

/-- Whether a byte belongs to a range of characters. Of the bytes of the two ends, all but the last
of the first and the first of the last stand for themselves. -/
def inRange (b : UInt8) (range : Char × Char) : Bool :=
  let first := String.utf8EncodeChar range.1
  let last := String.utf8EncodeChar range.2
  if range.1 = range.2 then first.contains b
  else
    first.dropLast.contains b || last.tail.contains b ||
      isBetween (first.getLast?.getD 0) (last.head?.getD 0) b

mutual

/-- Whether a token matches nothing but the empty text because it has no other alternatives. -/
def isVoid : GlobToken → Bool
  | .alternates branches => areVoid branches
  | _ => false

/-- Whether all tokens of a list are void. -/
def allVoid : List GlobToken → Bool
  | [] => true
  | token :: tokens => isVoid token && allVoid tokens

/-- Whether all alternatives of a list are void. -/
def areVoid : List (List GlobToken) → Bool
  | [] => true
  | branch :: branches => allVoid branch && areVoid branches

end

mutual

/-- Whether a token matches the start of a text, and what follows passes a test. Empty alternatives
do not count, unless there are no others. -/
def matchToken (components : Bool) (next : List UInt8 → Bool) : GlobToken → List UInt8 → Bool
  | .literal c, s => startsWith next (String.utf8EncodeChar c) s
  | .any, s =>
    match s with
    | [] => false
    | b :: s => (!components || b != slash) && next s
  | .star, s => afterSome (fun b => !components || b != slash) next s
  | .anyPrefix, s => next s || afterSlash next s
  | .anySuffix, s => onSlash (afterSome (fun _ => true) next) s
  | .anyBetween, s => onSlash (fun s => next s || afterSlash next s) s
  | .class negated ranges, s =>
    match s with
    | [] => false
    | b :: s => ranges.any (inRange b) != negated && next s
  | .alternates branches, s =>
    if areVoid branches then next s else matchBranches components next branches s

/-- Whether some tokens match the start of a text, and what follows passes a test. -/
def matchTokens (components : Bool) (next : List UInt8 → Bool) : List GlobToken → List UInt8 → Bool
  | [], s => next s
  | token :: tokens, s => matchToken components (matchTokens components next tokens) token s

/-- Whether one of some alternatives matches the start of a text, and what follows passes a test. -/
def matchBranches (components : Bool) (next : List UInt8 → Bool) :
    List (List GlobToken) → List UInt8 → Bool
  | [], _ => false
  | branch :: branches, s =>
    (!allVoid branch && matchTokens components next branch s) ||
      matchBranches components next branches s

end

/-- Whether a pattern matches a path. A double star alone matches every path. -/
def isMatch (components : Bool) (tokens : List GlobToken) (path : OsString) : Bool :=
  match tokens with
  | [.anyPrefix] => true
  | _ => matchTokens components List.isEmpty tokens path.bytes

end RemoteImports.Glob
