import Crawler.CommandLine.Invocation
import Crawler.Configuration.Reader
import Crawler.Json.Writer
import Crawler.Machine.Basic

/-! One run of the service. It carries out one command on a machine at rest, with the settings that
the configured file holds, and writes what came of it. -/
namespace Crawler.CommandLine

structure Outcome where
  exitCode : Nat
  output : String
deriving DecidableEq, Repr

def versionText : String := "trak_motion 0.1.0\n"

def helpText : String :=
  "Motion coordinator and Z homing for a tracked platform\n\n" ++
  "Usage: trak_motion [-c <PATH>] [-v] [--json] <COMMAND>\n\n" ++
  "Commands: drive, depth, home, status, estop, spindle, settings, help\n"

def configuration (files : Files) : Option String → Except ConfigurationFault Configuration
  | none => .ok .default
  | some path => do
    let c ← Configuration.load files path
    c.validate.mapError .inconsistent
    return c

def machine (c : Configuration) (store : Setting.Store) : Machine :=
  .fresh store (.fresh (c.pins.axes.map (·.step)) c.switchPosition) (.fresh none) c.homing
    (.queue c.capacity [])

def report (result : Except Machine.Fault Machine.Response) (messages : List Notice) : Json :=
  let console := Json.array (messages.map Notice.toJson)
  match result with
  | .ok response =>
    .object [("ok", .bool true), ("response", response.toJson), ("console", console)]
  | .error fault =>
    .object
      [("ok", .bool false), ("error", .text fault.message), ("clientError", .bool fault.isClient),
        ("console", console)]

def carryOut (command : Machine.Command) (start : Machine) : Outcome × Files :=
  let (result, done) := (Machine.execute command).run start
  let text := (report result done.console.collect.1).write .indented ++ "\n"
  (⟨if result.isOk then 0 else 1, text⟩, done.store.files)

def run (words : List String) (files : Files) : Outcome × Files :=
  match Invocation.parse? words with
  | none => (⟨2, ""⟩, files)
  | some .help => (⟨0, helpText⟩, files)
  | some .version => (⟨0, versionText⟩, files)
  | some (.execute configPath command) =>
    match configuration files configPath with
    | .error _ => (⟨1, ""⟩, files)
    | .ok c =>
      match Setting.Store.open (.file c.settingsPath) files with
      | (.error _, files) => (⟨1, ""⟩, files)
      | (.ok store, _) => carryOut command (machine c store)

end Crawler.CommandLine
