import RemoteImports.Config.Resolve
import RemoteImports.Ignore.Rules

/-!
# Ignore files in force

Which ignore files speak about a path. Every directory may have an ignore file for this kind of tool
and, in a repository, one of version control and a list of exclusions; the directories above the
start of a walk count as well. Nearer files go before farther ones, ignore files for tools before
those of version control, and the files of version control count up to the root of the repository.
The user's global ignore file comes last.
-/

namespace RemoteImports

open OsString (slash dot)

/-- What a directory says about the files below it. -/
structure IgnoreLevel where
  /-- The directory as the walk reaches it. -/
  directory : FilePath
  /-- The rules for tools. -/
  tool : IgnoreRules
  /-- The rules of version control. -/
  repository : IgnoreRules
  /-- The exclusions that a repository keeps for itself. -/
  exclusions : IgnoreRules
  /-- Whether a repository starts here. -/
  isRepository : Bool
  deriving Inhabited

/-- All ignore files that a walk has to ask. -/
structure IgnoreScope where
  /-- The directories from the current one to the start of the walk. -/
  inner : List IgnoreLevel
  /-- The directories above the start, nearest first. -/
  above : List IgnoreLevel
  /-- The start of the walk without links and dots. -/
  base : FilePath
  /-- The global rules of the user. -/
  global : IgnoreRules
  deriving Inhabited

/-! ## Reading ignore files -/

namespace FileTree

/-- The lines of the bytes of a file, up to the first that is no text. -/
def textLines (bytes : List UInt8) : List (List Char) :=
  let pieces := bytes.splitOnP (· == 10)
  let decoded := pieces.map fun piece => String.fromUTF8? ⟨piece.toArray⟩
  Text.lines ((decoded.takeWhile Option.isSome).flatMap fun line =>
    (line.getD "").toList ++ ['\n'])

/-- The lines of the file that a path leads to; what is no file has none. -/
def lines (tree : FileTree) (p : FilePath) : List (List Char) :=
  match tree.entry? p with
  | some (.file (.text text)) => Text.lines text.toList
  | some (.file (.binary bytes)) => textLines bytes
  | _ => []

end FileTree

namespace IgnoreLevel

/-- The first line of a file. -/
def firstLine? (tree : FileTree) (p : FilePath) : Option (List Char) := (tree.lines p).head?

/-- The directory that holds the exclusions of the repository at a directory. Instead of a
directory, a file may say where it is, and in which directory common files are kept. -/
def repositoryDirectory? (tree : FileTree) (directory : FilePath) : Option FilePath := do
  let marker := directory.child ".git"
  if tree.isFile marker then
    let line ← firstLine? tree marker
    let place : FilePath := ⟨String.ofList (← "gitdir: ".toList.isPrefixOf? line)⟩
    let common ← firstLine? tree (place.child "commondir")
    if common.head? = some '.' then some (place.child ↑(String.ofList common))
    else some ⟨String.ofList common⟩
  else some marker

/-- The names of the entries that a repository keeps its own files in. -/
def storeNames : List OsString := [".git", ".jj"]

/-- What a directory says about the files below it. -/
def ofDirectory (tree : FileTree) (directory : FilePath) : IgnoreLevel where
  directory
  tool := .ofLines directory (tree.lines (directory.child ".ignore"))
  repository := .ofLines directory (tree.lines (directory.child ".gitignore"))
  exclusions :=
    match repositoryDirectory? tree directory with
    | some place => .ofLines directory (tree.lines (place.child "info/exclude"))
    | none => .none
  isRepository := storeNames.any fun name => tree.contains (directory.child name)

end IgnoreLevel

/-! ## The global rules -/

namespace GlobalIgnore

/-- Whether a character is a blank of a settings file. -/
def isSpace (c : Char) : Bool := c == ' ' || (9 ≤ c.toNat && c.toNat ≤ 13)

/-- What follows a word at the start of a text, in small or capital letters. -/
def afterWord? (word text : List Char) : Option (List Char) :=
  if (text.take word.length).map Char.toLower = word then some (text.drop word.length) else none

/-- Whether only blanks, and perhaps a quotation mark, stand between the start of a text and the end
of a line. -/
def endsLine (allowQuote : Bool) : List Char → Bool
  | [] => true
  | c :: rest =>
    c == '\n' || (isSpace c && endsLine allowQuote rest) ||
      (allowQuote && c == '"' && closesLine rest)
where
  /-- Whether only blanks stand between the start of a text and the end of a line. -/
  closesLine : List Char → Bool
    | [] => true
    | c :: rest => c == '\n' || (isSpace c && closesLine rest)

/-- The value at the start of a text: one word up to the end of its line, perhaps in quotes. -/
def value? (text : List Char) : Option (List Char) :=
  let text := text.dropWhile isSpace
  let text := if text.head? = some '"' then text.tail.dropWhile isSpace else text
  let word := text.takeWhile (!isSpace ·)
  let rest := text.dropWhile (!isSpace ·)
  if 1 < word.length ∧ word.getLast? = some '"' ∧ endsLine false rest then some word.dropLast
  else if word ≠ [] ∧ endsLine true rest then some word
  else none

/-- The value of the setting that names the global ignore file, if the text starts with it. -/
def setting? (text : List Char) : Option (List Char) := do
  let rest ← afterWord? "excludesfile".toList (text.dropWhile isSpace)
  match rest.dropWhile isSpace with
  | '=' :: rest => value? rest
  | _ => none

/-- The first value of the setting at the start of a line of a text. -/
def findSetting? : List Char → Bool → Option (List Char)
  | [], _ => none
  | c :: rest, atStart =>
    match if atStart then setting? (c :: rest) else none with
    | some value => some value
    | none => findSetting? rest (c == '\n')

/-- The path of a setting, with a tilde for the home directory. -/
def expandHome (home : Option FilePath) (value : List Char) : FilePath :=
  match home with
  | none => ⟨String.ofList value⟩
  | some home =>
    ⟨String.ofList (value.flatMap fun c => if c = '~' then home.text.toList else [c])⟩

/-- The global ignore file that the settings of version control in a file name. -/
def named? (tree : FileTree) (home : Option FilePath) (settings : Option FilePath) :
    Option FilePath := do
  let file ← settings
  match tree.entry? file with
  | some (.file (.text text)) => (findSetting? text.toList true).map (expandHome home)
  | _ => none

/-- The directory of the user's settings of version control. -/
def settingsDirectory? (tree : FileTree) (env : Environment) : Option FilePath :=
  match env.lookup "XDG_CONFIG_HOME" with
  | none | some ⟨[]⟩ => (Config.home? tree env).map (·.child ".config")
  | some directory => some ⟨directory⟩

/-- The global ignore file of the user. -/
def file? (tree : FileTree) (env : Environment) : Option FilePath :=
  let home := Config.home? tree env
  let settings := (settingsDirectory? tree env).map (·.child "git/config")
  (named? tree home (home.map (·.child ".gitconfig"))).or <|
    (named? tree home settings).or <|
      (settingsDirectory? tree env).map (·.child "git/ignore")

/-- The global rules of the user. Their patterns are seen from the working directory. -/
def rules (tree : FileTree) (env : Environment) : IgnoreRules :=
  match file? tree env with
  | some file => .ofLines tree.workingDirectory (tree.lines file)
  | none => .none

end GlobalIgnore

/-! ## Asking the scope -/

namespace IgnoreScope

/-- The directories above a place, nearest first. -/
def parents (place : Location) : List FilePath :=
  ((List.range place.length).map fun n => Location.path (place.take n)).reverse

/-- The scope at the start of a walk, before its directory is entered. -/
def atStart (tree : FileTree) (env : Environment) (place : Location) : IgnoreScope where
  inner := []
  above := (parents place).map (IgnoreLevel.ofDirectory tree)
  base := place.path
  global := GlobalIgnore.rules tree env

/-- The scope inside a directory. -/
def enter (scope : IgnoreScope) (tree : FileTree) (directory : FilePath) : IgnoreScope :=
  { scope with inner := IgnoreLevel.ofDirectory tree directory :: scope.inner }

/-- Whether a walk is inside a repository. -/
def inRepository (scope : IgnoreScope) : Bool :=
  scope.inner.any (·.isRepository) || scope.above.any (·.isRepository)

/-- The levels of the repository: up to the first where it starts. -/
def upToRepository : List IgnoreLevel → List IgnoreLevel
  | [] => []
  | level :: rest => if level.isRepository then [level] else level :: upToRepository rest

/-- The path below the directories above the start of a walk. -/
def pathFromAbove (scope : IgnoreScope) (path : List UInt8) : List UInt8 :=
  let below :=
    match scope.inner.getLast? with
    | none => path
    | some level =>
      if level.directory.bytes = [dot] then path
      else
        IgnoreRules.dropStart [slash]
          (IgnoreRules.dropStart (IgnoreRules.withoutDot level.directory.bytes) path)
  (scope.base.join ⟨⟨below⟩⟩).bytes

/-- The first verdict that a kind of rules gives, nearest level first. -/
def firstVerdict? (rulesOf : IgnoreLevel → IgnoreRules) (path : List UInt8) (isDirectory : Bool)
    (levels : List IgnoreLevel) : Option Verdict :=
  levels.findSome? fun level => (rulesOf level).verdict? path isDirectory

/-- What all ignore files together say about a path. -/
def verdict? (scope : IgnoreScope) (p : FilePath) (isDirectory : Bool) : Option Verdict :=
  let path := IgnoreRules.withoutDot p.bytes
  let fromAbove := scope.pathFromAbove path
  let ask (rulesOf : IgnoreLevel → IgnoreRules) (inner above : List IgnoreLevel) :
      Option Verdict :=
    (firstVerdict? rulesOf path isDirectory inner).or
      (firstVerdict? rulesOf fromAbove isDirectory above)
  let tool := ask IgnoreLevel.tool scope.inner scope.above
  if scope.inRepository then
    let inner := upToRepository scope.inner
    let above :=
      if scope.inner.any (·.isRepository) then [] else upToRepository scope.above
    tool.or <| (ask IgnoreLevel.repository inner above).or <|
      (ask IgnoreLevel.exclusions inner above).or (scope.global.verdict? path isDirectory)
  else tool

/-- Whether a path is passed over. -/
def ignores (scope : IgnoreScope) (p : FilePath) (isDirectory : Bool) : Bool :=
  scope.verdict? p isDirectory = some .ignored

end IgnoreScope

end RemoteImports
