/-! A tree of files. A name is the row of the parts that lead to it from the root. A path is a text
whose parts stand between slashes; they are followed one by one, each through a directory, from the
root if a slash comes first and from the working directory otherwise. A file holds text, or bytes
that are no text and are never looked at. -/
namespace Crawler

inductive Files.Node where
  | text (content : String)
  | binary
  | directory
deriving DecidableEq, Repr

structure Files where
  nodes : List ((Nat × List String) × Files.Node)
  home : List String
deriving DecidableEq, Repr

inductive PathFault where
  | missing
  /-- A part on the way is no directory, or it cannot be a name at all. -/
  | blocked
deriving DecidableEq, Repr

namespace Files

/-- What a name is looked up by. The number of its parts comes first, so that names of different
depths are told apart at once. -/
def key (name : List String) : Nat × List String := (name.length, name)

def empty : Files := ⟨[(key ["work"], .directory)], ["work"]⟩

def node? (files : Files) (name : List String) : Option Node :=
  match name with
  | [] => some .directory
  | _ =>
    let key := key name
    (files.nodes.find? (·.1 = key)).map (·.2)

def put (files : Files) (name : List String) (node : Option Node) : Files :=
  let key := key name
  { files with
    nodes := files.nodes.filter (·.1 ≠ key) ++ (node.map fun node => (key, node)).toList }

def readText? (files : Files) (name : List String) : Option String :=
  match files.node? name with
  | some (.text content) => some content
  | _ => none

def list (files : Files) (name : List String) : List String :=
  let inside := files.nodes.filterMap fun ((_, inner), _) =>
    if inner.dropLast = name then inner.getLast? else none
  inside.mergeSort fun a b => decide (a ≤ b)

/-! ### Paths -/

def nameLimit : Nat := 255

def pathLimit : Nat := 4095

def parts (path : String) : List String := path.splitOn "/"

def isSound (parts : List String) : Bool :=
  ("/".intercalate parts).utf8ByteSize ≤ pathLimit && parts.all fun part => '\x00' ∉ part.toList

def isAbsolute (path : String) : Bool := path.toList.head? = some '/'

def start (files : Files) (path : String) : List String :=
  if isAbsolute path then [] else files.home

def isIdle (part : String) : Bool := part = "" || part = "."

def isInward (part : String) : Bool := !isIdle part && part ≠ ".."

def follow? (name : List String) (part : String) : Option (List String) :=
  if isIdle part then some name
  else if part = ".." then some name.dropLast
  else if part.utf8ByteSize ≤ nameLimit then some (name ++ [part])
  else none

def walk (files : Files) : List String → List String → Except PathFault (List String)
  | name, [] => .ok name
  | name, part :: rest =>
    match follow? name part with
    | none => .error .blocked
    | some next =>
      match files.node? next with
      | some .directory => walk files next rest
      | some _ => .error .blocked
      | none => .error .missing

def find (files : Files) (path : String) : Except PathFault Node :=
  if path = "" then .error .missing
  else if !isSound (parts path) then .error .blocked
  else
    match files.walk (files.start path) (parts path).dropLast with
    | .error fault => .error fault
    | .ok directory =>
      match follow? directory ((parts path).getLast?.getD "") with
      | none => .error .blocked
      | some name =>
        match files.node? name with
        | some node => .ok node
        | none => .error .missing

def trimIdle (parts : List String) : List String := (parts.reverse.dropWhile isIdle).reverse

def above (parts : List String) : List String := trimIdle (trimIdle parts).dropLast

/-- Makes the directories along parts that are not there and answers the one that they lead to.
Those that were made stay even if something stands in the way of the others. -/
def makeDirectories (files : Files) : List String → List String → Option (List String) × Files
  | name, [] => (some name, files)
  | name, part :: rest =>
    match follow? name part with
    | none => (none, files)
    | some next =>
      match files.node? next with
      | some .directory => makeDirectories files next rest
      | some _ => (none, files)
      | none => makeDirectories (files.put next (some .directory)) next rest

def draftName : String := ".draft0000"

def draft (files : Files) (path : String) : List String :=
  (if isAbsolute path then [] else "" :: files.home) ++ above (parts path) ++ [draftName]

def target? (files : Files) (directory : List String) (path : String) : Option (List String) :=
  let last := (parts path).getLast?.getD ""
  if isSound (files.draft path) ∧ isSound (parts path) ∧ isInward last then
    (follow? directory last).filter fun name => files.node? name ≠ some .directory
  else none

/-- Replaces the text of a file, making the directories that lead to it. The text is first written
to a draft in the same directory, by its path from the root, and then takes the place of the file:
both paths have to be ones that can be followed. Nothing is replaced where a directory has the name;
directories made on the way stay. -/
def writeText (files : Files) (path : String) (content : String) : Bool × Files :=
  if !isSound (above (parts path)) then (false, files)
  else
    match files.makeDirectories (files.start path) (above (parts path)) with
    | (none, made) => (false, made)
    | (some directory, made) =>
      match made.target? directory path with
      | none => (false, made)
      | some name => (true, made.put name (some (.text content)))

end Files

end Crawler
