import RemoteImports.FilePath

/-!
# Arguments

The words after a command name: options, their values, and positional words. An option is written
`--name`, an option with a letter also `-x`; a value stands in the same word (`--name=value`,
`-xvalue`, `-x=value`) or in the next one, which must not look like an option. After a lone `--`
every word is positional. `Arguments.read?` refuses what breaks these rules, names an unknown
option, or gives an option more often than its rule allows. Words are taken to be texts; the paths
of a command need not be.
-/

namespace RemoteImports

/-- How an option takes values. -/
inductive OptionKind
  /-- It takes none and is given at most once. -/
  | flag
  /-- It takes one value and is given at most once. -/
  | single
  /-- It takes one value each time it is given. -/
  | repeated
  deriving DecidableEq, Inhabited, Repr

/-- An option that a command knows. -/
structure OptionRule where
  name : String
  kind : OptionKind
  letter : Option Char := none
  deriving DecidableEq, Inhabited, Repr

/-- The words after a command name, sorted into options and positional words. -/
structure Arguments where
  /-- The names of the given options with their values, in order; a flag has the empty value. -/
  options : List (String × String)
  positional : List String
  deriving DecidableEq, Inhabited, Repr

/-- How a word presents itself. -/
inductive Word
  /-- The word after which there are no options. -/
  | endOfOptions
  /-- An option by name, with the value in the same word. -/
  | named (name : List Char) (value : Option (List Char))
  /-- An option by letter, with what follows in the same word. -/
  | lettered (letter : Char) (rest : List Char)
  /-- Anything else. -/
  | plain
  deriving DecidableEq, Inhabited, Repr

namespace Word

/-- The name and the value of an option in one word. -/
def splitValue (text : List Char) : Word :=
  match text.dropWhile (· ≠ '=') with
  | [] => named text none
  | _ :: value => named (text.takeWhile (· ≠ '=')) (some value)

/-- How a word presents itself. -/
def ofChars : List Char → Word
  | ['-', '-'] => endOfOptions
  | '-' :: '-' :: text => splitValue text
  | '-' :: letter :: rest => lettered letter rest
  | _ => plain

end Word

namespace Arguments

/-- No words at all. -/
def none : Arguments := ⟨[], []⟩

/-- The words with an option before them. -/
def withOption (given : Arguments) (name value : String) : Arguments :=
  { given with options := (name, value) :: given.options }

/-- The words with a positional word before them. -/
def withPositional (given : Arguments) (word : String) : Arguments :=
  { given with positional := word :: given.positional }

/-- The value that stands after the letter of an option. -/
def letterValue? : List Char → Option (List Char)
  | [] => Option.none
  | '=' :: value => some value
  | value => some value

/-- The rule for an option, with the value in its word. -/
def ruleFor? (rules : List OptionRule) : Word → Option (OptionRule × Option (List Char))
  | .named name value => (rules.find? (·.name.toList = name)).map (·, value)
  | .lettered letter rest => (rules.find? (·.letter = some letter)).map (·, letterValue? rest)
  | _ => Option.none

/-- The options and positional words among some words, if every option is known and has what it
takes. -/
def scan? (rules : List OptionRule) : List String → Option Arguments
  | [] => some none
  | word :: rest =>
    match Word.ofChars word.toList with
    | .plain => (scan? rules rest).map (·.withPositional word)
    | .endOfOptions => some ⟨[], rest⟩
    | w =>
      match ruleFor? rules w with
      | Option.none => Option.none
      | some (rule, value) =>
        match rule.kind, value with
        | .flag, Option.none => (scan? rules rest).map (·.withOption rule.name "")
        | .flag, some _ => Option.none
        | _, some value => (scan? rules rest).map (·.withOption rule.name (String.ofList value))
        | _, Option.none =>
          match rest with
          | [] => Option.none
          | next :: rest =>
            if Word.ofChars next.toList = .plain then
              (scan? rules rest).map (·.withOption rule.name next)
            else Option.none

/-- The values given for an option. -/
def values (given : Arguments) (name : String) : List String :=
  (given.options.filter (·.1 = name)).map (·.2)

/-- Whether an option is given. -/
def has (given : Arguments) (name : String) : Bool := given.values name ≠ []

/-- Whether an option is given no more often than its rule allows. -/
def respects (given : Arguments) (rule : OptionRule) : Bool :=
  rule.kind = .repeated || (given.values rule.name).length ≤ 1

/-- The options and positional words among some words, if they keep to the rules. -/
def read? (rules : List OptionRule) (words : List String) : Option Arguments :=
  (scan? rules words).filter fun given => rules.all given.respects

end Arguments

end RemoteImports
