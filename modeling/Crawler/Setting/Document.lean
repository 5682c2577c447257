import Crawler.Setting.Key
import Crawler.Toml.Reader
import Crawler.Toml.Writer

/-! The persisted document of the settings: a format version, a mark that says that the table is
complete, and scalars under the texts of their keys. -/
namespace Crawler.Setting

/-- Scalars by key text, in the order of the texts. -/
structure Document where
  complete : Bool
  entries : List (String × Stored)
deriving DecidableEq, Repr

namespace Document

def fresh : Document := ⟨false, []⟩

def formatVersion : Nat := 1

def load? (document : Document) (name : String) : Option Stored :=
  (document.entries.find? (·.1 = name)).map (·.2)

def insertEntry (name : String) (value : Stored) : List (String × Stored) → List (String × Stored)
  | [] => [(name, value)]
  | (other, old) :: rest =>
    if name = other then (name, value) :: rest
    else if name < other then (name, value) :: (other, old) :: rest
    else (other, old) :: insertEntry name value rest

def insert (document : Document) (name : String) (value : Stored) : Document :=
  { document with entries := insertEntry name value document.entries }

def ofEntries (complete : Bool) (entries : List (String × Stored)) : Document :=
  entries.foldl (fun document entry => document.insert entry.1 entry.2) ⟨complete, []⟩

def writeStored : Stored → List Char
  | .bool b => Toml.writeBool b
  | .integer n => Toml.writeInteger n
  | .float x => Toml.writeFloat x

def writeEntry (entry : String × Stored) : List Char :=
  Toml.writeKey entry.1 ++ " = ".toList ++ writeStored entry.2 ++ ['\n']

def write (document : Document) : String :=
  String.ofList <|
    s!"version = {formatVersion}\nseeded = ".toList ++ Toml.writeBool document.complete ++
    "\n\n[settings]\n".toList ++ document.entries.flatMap writeEntry

structure Versioned where
  version : Nat
  document : Document
deriving DecidableEq, Repr

/-- A scalar of a document. Integers beyond the signed range are read as floats. -/
def stored? : Toml → Option Stored
  | .boolean b => some (.bool b)
  | .integer n =>
    if Int64.minValue.toInt ≤ n ∧ n ≤ Int64.maxValue.toInt then some (.integer n)
    else if 0 ≤ n ∧ n < UInt64.size then some (.float (Number.ofInt n))
    else none
  | .float x => some (.float x)
  | _ => none

def version? : Option Toml → Option Nat
  | none => some 0
  | some (.integer n) => if 0 ≤ n ∧ n < UInt32.size then some n.toNat else none
  | some _ => none

def complete? : Option Toml → Option Bool
  | none => some false
  | some (.boolean b) => some b
  | some _ => none

def entries? : Option Toml → Option (List (String × Stored))
  | none => some []
  | some (.table _ entries) => entries.mapM fun (name, value) => (stored? value).map (name, ·)
  | some _ => none

/-- Reads the text of a document. Entries that it does not know are ignored if they are readable. -/
def read? (content : String) : Option Versioned := do
  let table ← Toml.read? content
  guard (Toml.othersReadable ["version", "seeded", "settings"] table)
  let version ← version? (Toml.entry? "version" table)
  let complete ← complete? (Toml.entry? "seeded" table)
  let entries ← entries? (Toml.entry? "settings" table)
  return ⟨version, ofEntries complete entries⟩

end Document

end Crawler.Setting
