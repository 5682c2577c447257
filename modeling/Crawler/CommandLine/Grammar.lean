/-! Command lines: options with a long name or a letter, places for words without a name, and
subcommands, which take all that follows them. A word that starts with a dash is a value only where
negative numbers are allowed and it looks like one, or after two dashes alone. -/
namespace Crawler.CommandLine

structure ValueRule where
  allowsNegative : Bool
  isValid : String → Bool

inductive Effect where
  | flag
  | stop
  | value (rule : ValueRule)

structure OptionRule where
  name : String
  letter : Option Char
  effect : Effect

structure Grammar where
  options : List OptionRule
  places : List ValueRule
  subcommands : List String

structure Arguments where
  /-- Options with their values, which flags do not have. -/
  given : List (String × String)
  placed : List String
  subcommand : Option (String × List String)
deriving DecidableEq, Repr

inductive Stop where
  | refused
  | asked (name : String)
deriving DecidableEq, Repr

/-- Whether the text after a dash looks like a number: digits with at most one point among them and
an exponent that does not end it. -/
def looksNumeric (text : List Char) : Bool :=
  let (digits, exponent) := text.span fun c => c ≠ 'e' ∧ c ≠ 'E'
  (digits.all fun c => c.isDigit || c = '.') && digits.count '.' ≤ 1 && digits.head? ≠ some '.' &&
    (exponent.isEmpty ||
      (!digits.isEmpty && 1 < exponent.length && (exponent.drop 1).all Char.isDigit))

def ValueRule.takes (rule : ValueRule) (word : String) : Bool :=
  match word.toList with
  | '-' :: c :: rest => rule.allowsNegative && looksNumeric (c :: rest)
  | _ => true

namespace Arguments

def empty : Arguments := ⟨[], [], none⟩

def value? (arguments : Arguments) (name : String) : Option String :=
  (arguments.given.find? (·.1 = name)).map (·.2)

def has (arguments : Arguments) (name : String) : Bool := (arguments.value? name).isSome

def give (arguments : Arguments) (name value : String) : Except Stop Arguments :=
  if arguments.has name then .error .refused
  else .ok { arguments with given := arguments.given ++ [(name, value)] }

def giveValue (arguments : Arguments) (name : String) (rule : ValueRule) (value : String) :
    Except Stop Arguments :=
  if rule.isValid value then arguments.give name value else .error .refused

end Arguments

namespace Grammar

def nextPlace? (g : Grammar) (seen : Arguments) : Option ValueRule := g.places[seen.placed.length]?

def place (g : Grammar) (seen : Arguments) (word : String) : Except Stop Arguments :=
  match g.nextPlace? seen with
  | some rule =>
    if rule.isValid word then .ok { seen with placed := seen.placed ++ [word] } else .error .refused
  | none => .error .refused

def placeAll (g : Grammar) (seen : Arguments) (words : List String) : Except Stop Arguments :=
  words.foldlM g.place seen

abbrev Waiting := Option (String × ValueRule)

def readLong (g : Grammar) (seen : Arguments) (text : List Char) :
    Except Stop (Waiting × Arguments) :=
  let (name, rest) := text.span (· ≠ '=')
  match g.options.find? (·.name = String.ofList name), rest with
  | none, _ => .error .refused
  | some rule, [] =>
    match rule.effect with
    | .flag => (seen.give rule.name "").map (none, ·)
    | .stop => .error (.asked rule.name)
    | .value values => .ok (some (rule.name, values), seen)
  | some rule, _ :: value =>
    match rule.effect with
    | .value values => (seen.giveValue rule.name values (String.ofList value)).map (none, ·)
    | _ => .error .refused

/-- Letters of options after one dash; the first that takes a value takes the rest as its value. -/
def readLetters (g : Grammar) (seen : Arguments) : List Char → Except Stop (Waiting × Arguments)
  | [] => .ok (none, seen)
  | c :: rest =>
    match g.options.find? (·.letter = some c) with
    | none => .error .refused
    | some rule =>
      match rule.effect, rest with
      | .flag, _ => (seen.give rule.name "").bind fun seen => g.readLetters seen rest
      | .stop, _ => .error (.asked rule.name)
      | .value values, [] => .ok (some (rule.name, values), seen)
      | .value values, '=' :: value | .value values, value =>
        (seen.giveValue rule.name values (String.ofList value)).map (none, ·)

/-- A word that is no subcommand and no value of an option before it. -/
def readWord (g : Grammar) (seen : Arguments) (word : String) : Except Stop (Waiting × Arguments) :=
  match word.toList with
  | '-' :: '-' :: text => g.readLong seen text
  | '-' :: c :: letters =>
    if ((g.nextPlace? seen).any (·.takes word)) then (g.place seen word).map (none, ·)
    else g.readLetters seen (c :: letters)
  | _ => (g.place seen word).map (none, ·)

def readFrom (g : Grammar) : Waiting → Arguments → List String → Except Stop Arguments
  | none, seen, [] => .ok seen
  | some _, _, [] => .error .refused
  | some (name, values), seen, word :: rest =>
    if values.takes word then
      (seen.giveValue name values word).bind fun seen => g.readFrom none seen rest
    else .error .refused
  | none, seen, word :: rest =>
    if word ∈ g.subcommands then .ok { seen with subcommand := some (word, rest) }
    else if word = "--" then g.placeAll seen rest
    else (g.readWord seen word).bind fun (waiting, seen) => g.readFrom waiting seen rest

def read (g : Grammar) (words : List String) : Except Stop Arguments := g.readFrom none .empty words

end Grammar

end Crawler.CommandLine
