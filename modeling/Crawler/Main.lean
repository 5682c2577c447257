import Crawler.CommandLine.Session

/-! The service as a program: what stands along the paths of a run is taken from the disk, and what
the run changed is put there. -/

open Crawler

def pathOf (name : List String) : String := "/" ++ "/".intercalate name

def look (path : String) : IO (Option Files.Node) := do
  try return some (.text (← IO.FS.readFile path))
  catch
    | .noFileOrDirectory .. => return none
    | .inappropriateType .. => return some .directory
    | _ => return some .binary

/-- Takes what stands along parts from the disk, as far as they lead through directories. -/
def takeAlong (files : Files) (name : List String) : List String → IO Files
  | [] => return files
  | part :: rest => do
    match Files.follow? name part with
    | none => return files
    | some next =>
      match ← look (pathOf next) with
      | none => return files
      | some .directory => takeAlong (files.put next (some .directory)) next rest
      | some node => return files.put next (some node)

def takePath (files : Files) (path : String) : IO Files :=
  if Files.isSound (Files.parts path) then
    takeAlong files (files.start path) (Files.parts path)
  else return files

def putChanges (before after : Files) : IO Unit :=
  for ((_, name), node) in after.nodes do
    if before.node? name ≠ some node then
      match node with
      | .directory => IO.FS.createDirAll (pathOf name)
      | .text content => IO.FS.writeFile (pathOf name) content
      | .binary => pure ()

def main (words : List String) : IO UInt32 := do
  let home ← IO.currentDir
  let root : Files := ⟨[], []⟩
  let start ← takePath root home.toString
  let mut files : Files := ⟨start.nodes, (Files.parts home.toString).filter Files.isInward⟩
  let mut settingsPath := Configuration.default.settingsPath
  if let some (.execute configPath _) := CommandLine.Invocation.parse? words then
    if let some path := configPath then files ← takePath files path
    if let .ok c := CommandLine.configuration files configPath then settingsPath := c.settingsPath
    files ← takePath files settingsPath
  let (outcome, after) := CommandLine.run words files
  putChanges files after
  IO.print outcome.output
  return outcome.exitCode.toUInt32
