import Crawler.Action
import Crawler.Files
import Crawler.Setting.Document
import Crawler.Setting.Fault

/-! The settings store: a document and the medium that keeps it. Every change of a setting is one
write, and a write that fails leaves the document as it was. A store that was never completed is
first filled with the defaults and marked as complete last. -/
namespace Crawler.Setting

/-- What keeps a document: a memory, in which only some writes may be left before all fail, or the
file at a path. -/
inductive Medium where
  | memory (writesLeft : Option Nat)
  | file (path : String)
deriving DecidableEq, Repr

inductive Persistence where
  | memory (document : Document) (writesLeft : Option Nat)
  | file (path : String)
deriving DecidableEq, Repr

structure Store where
  document : Document
  medium : Medium
  files : Files
deriving DecidableEq, Repr

inductive Write where
  | put (key : Key) (value : Stored)
  | complete
deriving DecidableEq, Repr

def Write.apply : Write → Document → Document
  | put key value, document => document.insert key.text value
  | complete, document => { document with complete := true }

def defaultWrites : List Write := Key.all.map fun key => .put key key.default.toStored

structure Entry where
  key : Key
  value : Value
deriving DecidableEq, Repr

def Entry.toJson (entry : Entry) : Json :=
  let definition := entry.key.definition
  .object <|
    [("key", .text entry.key.text), ("value", entry.value.toJson),
      ("type", .text entry.key.kind.name), ("description", .text definition.description)] ++
    (definition.unit.map fun unit => ("unit", Json.text unit)).toList

namespace Store

def commit (document : Document) : Action Store Fault Unit := fun store =>
  match store.medium with
  | .memory none => (.ok (), { store with document })
  | .memory (some 0) => (.error (.commit .injected), store)
  | .memory (some (n + 1)) => (.ok (), { store with document, medium := .memory (some n) })
  | .file path =>
    match store.files.writeText path document.write with
    | (true, files) => (.ok (), { store with document, files })
    | (false, files) => (.error (.commit (.unwritable path)), { store with files })

def write (change : Write) : Action Store Fault Unit := fun store =>
  commit (change.apply store.document) store

def writeAll : List Write → Action Store Fault Unit
  | [] => pure ()
  | change :: rest => do
    write change
    writeAll rest

def isComplete (store : Store) : Bool := store.document.complete

def load? (store : Store) (key : Key) : Option Stored := store.document.load? key.text

/-- The document in a file. Where no file can be found, or one of another format version, the
document is fresh. -/
def readDocument (files : Files) (path : String) : Except Fault Document :=
  match files.find path with
  | .error _ => .ok .fresh
  | .ok (.text content) =>
    match Document.read? content with
    | some found =>
      .ok (if found.version = Document.formatVersion then found.document else .fresh)
    | none => .error (.unreadable path)
  | .ok _ => .error (.unreadable path)

def connect (persistence : Persistence) (files : Files) : Except Fault Store :=
  match persistence with
  | .memory document writesLeft => .ok ⟨document, .memory writesLeft, files⟩
  | .file path => (readDocument files path).map fun document => ⟨document, .file path, files⟩

def fill : Action Store Fault Unit := fun store =>
  if store.isComplete then (.ok (), store) else writeAll (defaultWrites ++ [.complete]) store

def «open» (persistence : Persistence) : Action Files Fault Store := fun files =>
  match connect persistence files with
  | .error fault => (.error fault, files)
  | .ok store =>
    match fill store with
    | (.ok (), store) => (.ok store, store.files)
    | (.error fault, store) => (.error fault, store.files)

/-- A key has one kind, and nothing else is read or written under it. -/
def checkKind (key : Key) (requested : Kind) : Except Fault Unit :=
  if key.kind = requested then .ok () else .error (.kindMismatch key key.kind requested)

def decode (key : Key) (kind : Kind) (stored : Stored) : Except Fault Value :=
  (Value.ofStored kind stored).mapError (.invalid key)

def get (store : Store) (key : Key) (kind : Kind) : Except Fault Value := do
  checkKind key kind
  match store.load? key with
  | none => .error (.missing key)
  | some stored => decode key kind stored

def value (store : Store) (key : Key) : Except Fault Value := store.get key key.kind

def checkValue (key : Key) (kind : Kind) (value : Value) : Except Fault Unit := do
  checkKind key kind
  checkKind key value.kind
  match value with
  | .float x => if x.isFinite then .ok () else .error (.invalid key (.notFinite x))
  | _ => .ok ()

def set (key : Key) (kind : Kind) (value : Value) : Action Store Fault Unit := do
  .ofExcept (checkValue key kind value)
  write (.put key value.toStored)

def setText (key : Key) (text : String) : Action Store Fault Value := do
  let value ← .ofExcept ((Value.parse key.kind text).mapError (.invalid key))
  set key key.kind value
  return value

def float (store : Store) (key : Key) : Except Fault Float := do
  match ← store.get key .float with
  | .float x => .ok (Number.widen x)
  | other => .error (.kindMismatch key other.kind .float)

def int (store : Store) (key : Key) : Except Fault Int32 := do
  match ← store.get key .int with
  | .int n => .ok n
  | other => .error (.kindMismatch key other.kind .int)

def flag (store : Store) (key : Key) : Except Fault Bool := do
  match ← store.get key .bool with
  | .bool b => .ok b
  | other => .error (.kindMismatch key other.kind .bool)

def number (store : Store) (key : Key) : Except Fault Float := (store.value key).map (·.number)

def list (store : Store) : Except Fault (List Entry) :=
  Key.all.mapM fun key => (store.get key key.kind).map (⟨key, ·⟩)

def restoreDefaults : Action Store Fault Unit := writeAll defaultWrites

end Store

end Crawler.Setting
