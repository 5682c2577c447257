import Crawler.Setting.Key

/-! What can go wrong with settings. -/
namespace Crawler.Setting

inductive CommitFault where
  | injected
  | unwritable (path : String)
deriving DecidableEq, Repr

inductive Fault where
  | missing (key : Key)
  /-- A value that motion needs is zero, negative or not finite. -/
  | zero (key : Key)
  | unknownKey (text : String)
  | kindMismatch (key : Key) (expected requested : Kind)
  | invalid (key : Key) (cause : ValueFault)
  | commit (cause : CommitFault)
  | unreadable (path : String)
deriving DecidableEq, Repr

def CommitFault.message : CommitFault → String
  | injected => "injected write failure"
  | unwritable path => s!"Failed to commit {path}"

def Fault.message : Fault → String
  | missing key => s!"Setting {key.text} is missing"
  | zero key => s!"Setting {key.text} must be non-zero"
  | unknownKey text => s!"Unknown setting key: {text}"
  | kindMismatch key expected requested =>
    s!"Setting {key.text} is of type {expected.name}, not {requested.name}"
  | invalid key cause => s!"Invalid value for {key.text}: {cause.message}"
  | commit cause => s!"Failed to persist settings: {cause.message}"
  | unreadable path => s!"Settings storage error: Failed to read {path}"

def Fault.isClient : Fault → Bool
  | unknownKey _ | kindMismatch .. | invalid .. => true
  | _ => false

def Key.parse (source : String) : Except Fault Key :=
  match Key.parse? source with
  | some key => .ok key
  | none => .error (.unknownKey (Text.trim source))

end Crawler.Setting
