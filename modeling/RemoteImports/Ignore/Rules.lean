import RemoteImports.FilePath
import RemoteImports.Glob.Match

/-!
# Ignore rules

The rules of an ignore file: patterns that hide files, one a line, in the form that version control
uses. A pattern with an exclamation mark keeps what it matches. The last rule that matches a path
decides. `IgnoreRules.verdict?` asks the rules of one file, seen from the directory they belong to.
-/

namespace RemoteImports

open OsString (slash dot)

/-- What ignore rules say about a path. -/
inductive Verdict
  /-- The path is passed over. -/
  | ignored
  /-- The path is kept, whatever weaker rules say. -/
  | kept
  deriving DecidableEq, Inhabited, Repr

/-- One line of an ignore file. -/
structure IgnoreRule where
  verdict : Verdict
  /-- Whether the rule is for directories only. -/
  onlyDirectories : Bool
  tokens : List GlobToken
  deriving Inhabited

/-- The rules of an ignore file. -/
structure IgnoreRules where
  /-- The directory that patterns are seen from. -/
  directory : FilePath
  rules : List IgnoreRule
  deriving Inhabited

/-! ## Reading rules -/

namespace IgnoreRule

/-- A line without the blanks at its end, unless it ends in an escaped one. -/
def trimLine (line : List Char) : List Char :=
  if ['\\', ' '].isSuffixOf line then line
  else (line.reverse.dropWhile Text.isBlank).reverse

/-- What the marks at the start of a line say: whether the rule keeps files, whether its pattern is
tied to the directory, and the pattern. -/
def leadingMarks (line : List Char) : Bool × Bool × List Char :=
  match line with
  | '\\' :: '!' :: rest => (false, false, '!' :: rest)
  | '\\' :: '#' :: rest => (false, false, '#' :: rest)
  | '!' :: '/' :: rest => (true, true, rest)
  | '!' :: rest => (true, false, rest)
  | '/' :: rest => (false, true, rest)
  | line => (false, false, line)

/-- A pattern without the slash at its end, which asks for a directory. -/
def withoutSlash (pattern : List Char) : Bool × List Char :=
  if pattern.getLast? = some '/' then
    let kept := pattern.dropLast
    (true, if kept.getLast? = some '\\' then kept.dropLast else kept)
  else (false, pattern)

/-- A pattern that matches at any depth, unless it is tied to the directory or names one. -/
def atAnyDepth (tied : Bool) (pattern : List Char) : List Char :=
  if tied ∨ pattern.contains '/' ∨ pattern = ['*', '*'] then pattern else "**/".toList ++ pattern

/-- A pattern that ends in a double star matches what is inside a directory, not the directory. -/
def insideOnly (pattern : List Char) : List Char :=
  if "/**".toList.isSuffixOf pattern then pattern ++ "/*".toList else pattern

/-- The rule of a line, if it holds one. A pattern that breaks the rules of patterns is none. -/
def ofLine? (line : List Char) : Option IgnoreRule :=
  if line.head? = some '#' then none
  else
    match trimLine line with
    | [] => none
    | line =>
      let (keeps, tied, pattern) := leadingMarks line
      let (onlyDirectories, pattern) := withoutSlash pattern
      match Glob.parse true (String.ofList (insideOnly (atAnyDepth tied pattern))) with
      | .error _ => none
      | .ok tokens => some ⟨if keeps then .kept else .ignored, onlyDirectories, tokens⟩

end IgnoreRule

namespace IgnoreRules

/-- A text without a byte-order mark in front of it. -/
def withoutMarks (line : List Char) : List Char := line.dropWhile fun c => c.toNat == 0xFEFF

/-- The rules of the lines of an ignore file for a directory. -/
def ofLines (directory : FilePath) (lines : List (List Char)) : IgnoreRules :=
  let lines :=
    match lines with
    | [] => []
    | first :: rest => withoutMarks first :: rest
  ⟨directory, lines.filterMap IgnoreRule.ofLine?⟩

/-! ## Asking rules -/

/-- The bytes of a path without some others at their start. -/
def dropStart (start path : List UInt8) : List UInt8 := (start.isPrefixOf? path).getD path

/-- A path without a dot and a slash in front of it. -/
def withoutDot (path : List UInt8) : List UInt8 := dropStart [dot, slash] path

/-- A path as the rules of a directory see it. -/
def seenFrom (directory path : List UInt8) : List UInt8 :=
  let directory := withoutDot directory
  let path := withoutDot path
  if directory = [dot] ∨ !path.contains slash then path
  else
    match directory.isPrefixOf? path with
    | some inside => dropStart [slash] inside
    | none => path

/-- What the last of some rules that matches a path says about it; the rules are given last
first. -/
def lastVerdict? (path : OsString) (isDirectory : Bool) : List IgnoreRule → Option Verdict
  | [] => none
  | rule :: rest =>
    if (!rule.onlyDirectories || isDirectory) && Glob.isMatch true rule.tokens path then
      some rule.verdict
    else lastVerdict? path isDirectory rest

/-- What the rules of a file say about a path. -/
def verdict? (rules : IgnoreRules) (path : List UInt8) (isDirectory : Bool) : Option Verdict :=
  lastVerdict? ⟨seenFrom rules.directory.bytes path⟩ isDirectory rules.rules.reverse

/-- No rules. -/
def none : IgnoreRules := ⟨⟨⟨[]⟩⟩, []⟩

end IgnoreRules

end RemoteImports
