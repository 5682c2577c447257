import Crawler.CommandLine.Grammar
import Crawler.Machine.Command

/-! The command line of the service: options, a command and what belongs to it. -/
namespace Crawler.CommandLine

inductive Invocation where
  | execute (configPath : Option String) (command : Machine.Command)
  | help
  | version
deriving DecidableEq, Repr

namespace Invocation

def isNumber (text : String) : Bool := (Number.readFloat text).toOption.isSome

def number : ValueRule := ⟨false, isNumber⟩

def signedNumber : ValueRule := ⟨true, isNumber⟩

def direction : ValueRule := ⟨false, fun text => (Direction.parse text).toOption.isSome⟩

def key : ValueRule := ⟨false, fun text => (Setting.Key.parse? text).isSome⟩

def helpOption : OptionRule := ⟨"help", some 'h', .stop⟩

def leaf (options : List (String × Effect)) (places : List ValueRule) : Grammar :=
  ⟨options.map (fun (name, effect) => ⟨name, none, effect⟩) ++ [helpOption], places, []⟩

def topGrammar : Grammar :=
  ⟨[⟨"config", some 'c', .value ⟨false, (· ≠ "")⟩⟩, ⟨"verbose", some 'v', .flag⟩,
      ⟨"json", none, .flag⟩, helpOption, ⟨"version", some 'V', .stop⟩], [],
    ["drive", "depth", "home", "status", "estop", "spindle", "settings", "help"]⟩

def driveGrammar : Grammar :=
  ⟨[⟨"direction", some 'd', .value direction⟩, ⟨"distance", none, .value number⟩,
      ⟨"feed", none, .value number⟩, helpOption], [], []⟩

def depthGrammar : Grammar := leaf [("distance", .value signedNumber), ("feed", .value number)] []

def spindleGrammar : Grammar := leaf [("on", .flag), ("off", .flag), ("percent", .value number)] []

def plainGrammar : Grammar := leaf [] []

def settingsGrammar : Grammar := ⟨[helpOption], [], ["list", "get", "set", "reset", "help"]⟩

def getGrammar : Grammar := leaf [] [key]

def setGrammar : Grammar := leaf [] [key, ⟨true, fun _ => true⟩]

def number? (arguments : Arguments) (name : String) : Option Float :=
  (arguments.value? name).bind fun text => (Number.readFloat text).toOption

def driveCommand? (arguments : Arguments) : Option Machine.Command := do
  let text ← arguments.value? "direction"
  let heading ← (Direction.parse text).toOption
  let distance ← number? arguments "distance"
  let feed ← number? arguments "feed"
  return .drive ⟨heading, feed, distance⟩

def depthCommand? (arguments : Arguments) : Option Machine.Command := do
  let distance ← number? arguments "distance"
  let feed ← number? arguments "feed"
  return .depth ⟨feed, distance⟩

/-- The switch must not be turned on and off at once. -/
def spindleCommand? (arguments : Arguments) : Option Machine.Command :=
  let on := arguments.has "on"
  let off := arguments.has "off"
  if on ∧ off then none
  else
    let enable := if on then some true else if off then some false else none
    some (.spindle ⟨enable, number? arguments "percent"⟩)

def getCommand? (arguments : Arguments) : Option Machine.Command := do
  let text ← arguments.placed[0]?
  let key ← Setting.Key.parse? text
  return .showSetting key

def setCommand? (arguments : Arguments) : Option Machine.Command := do
  let text ← arguments.placed[0]?
  let key ← Setting.Key.parse? text
  let value ← arguments.placed[1]?
  return .enterSetting key value

def commandOf (g : Grammar) (make : Arguments → Option Machine.Command) (words : List String) :
    Except Stop Machine.Command := do
  let arguments ← g.read words
  match make arguments with
  | some command => .ok command
  | none => .error .refused

def subcommandsOf (name : String) : List String :=
  if name = "settings" then settingsGrammar.subcommands else []

/-- A call for help, which may name a subcommand, one of its subcommands, and so on. -/
def helpOn (names : List String) : List String → Except Stop Machine.Command
  | [] => .error (.asked "help")
  | name :: rest => if name ∈ names then helpOn (subcommandsOf name) rest else .error .refused

def settingsCommand (words : List String) : Except Stop Machine.Command := do
  let arguments ← settingsGrammar.read words
  match arguments.subcommand with
  | some ("list", rest) => commandOf plainGrammar (fun _ => some .showSettings) rest
  | some ("get", rest) => commandOf getGrammar getCommand? rest
  | some ("set", rest) => commandOf setGrammar setCommand? rest
  | some ("reset", rest) => commandOf plainGrammar (fun _ => some .restoreSettings) rest
  | some ("help", rest) => helpOn settingsGrammar.subcommands rest
  | _ => .error .refused

def command (name : String) (words : List String) : Except Stop Machine.Command :=
  match name with
  | "drive" => commandOf driveGrammar driveCommand? words
  | "depth" => commandOf depthGrammar depthCommand? words
  | "home" => commandOf plainGrammar (fun _ => some .home) words
  | "status" => commandOf plainGrammar (fun _ => some .status) words
  | "estop" => commandOf plainGrammar (fun _ => some .emergencyStop) words
  | "spindle" => commandOf spindleGrammar spindleCommand? words
  | "settings" => settingsCommand words
  | "help" => helpOn topGrammar.subcommands words
  | _ => .error .refused

def read (words : List String) : Except Stop Invocation := do
  let arguments ← topGrammar.read words
  match arguments.subcommand with
  | some (name, rest) => return .execute (arguments.value? "config") (← command name rest)
  | none => .error .refused

def parse? (words : List String) : Option Invocation :=
  match read words with
  | .ok invocation => some invocation
  | .error (.asked "version") => some .version
  | .error (.asked _) => some .help
  | .error .refused => none

end Invocation

end Crawler.CommandLine
