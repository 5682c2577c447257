/-! TOML values and the way tables of a document come into being. A table that a header or a dotted
key opened may be continued by some later statements; which ones depends on how it was opened. -/
namespace Crawler

inductive Toml.Origin where
  /-- Braces, which hold the whole table. -/
  | braces
  /-- A header of its own. -/
  | header
  /-- The header of a table inside it. -/
  | implied
  /-- A dotted key. -/
  | dotted
deriving DecidableEq, Repr

inductive Toml where
  | text (s : String)
  | integer (n : Int)
  | float (x : Float)
  /-- A number that has no value: its digits are missing or wrong, or it is too large. -/
  | unreadable
  | boolean (b : Bool)
  | moment (s : String)
  | array (items : List Toml)
  /-- An array of tables that headers opened one by one. -/
  | tables (items : List Toml)
  | table (origin : Toml.Origin) (entries : List (String × Toml))
deriving Inhabited

namespace Toml

abbrev Entries := List (String × Toml)

mutual

def isReadable : Toml → Bool
  | unreadable => false
  | text _ | integer _ | float _ | boolean _ | moment _ => true
  | array items => areReadable items
  | tables items => areReadable items
  | table _ entries => entriesReadable entries

def areReadable : List Toml → Bool
  | [] => true
  | item :: items => isReadable item && areReadable items

def entriesReadable : List (String × Toml) → Bool
  | [] => true
  | (_, value) :: entries => isReadable value && entriesReadable entries

end

def othersReadable (names : List String) (entries : Entries) : Bool :=
  entries.all fun entry => entry.1 ∈ names || isReadable entry.2

def entry? (name : String) (entries : Entries) : Option Toml :=
  (entries.find? (·.1 = name)).map (·.2)

def replaceEntry (name : String) (value : Toml) (entries : Entries) : Entries :=
  entries.map fun entry => if entry.1 = name then (name, value) else entry

def updateLast (update : Entries → Option Entries) (items : List Toml) : Option (List Toml) :=
  match items.getLast? with
  | some (table origin entries) =>
    (update entries).map fun entries => items.dropLast ++ [table origin entries]
  | _ => none

/-- Gives a value to a key, through the tables of a dotted prefix. A key has one value, and a dotted
key leads to a table that dotted keys made. -/
def assign : List String → String → Toml → Entries → Option Entries
  | [], key, value, entries =>
    match entry? key entries with
    | none => some (entries ++ [(key, value)])
    | some _ => none
  | part :: rest, key, value, entries =>
    match entry? part entries with
    | none =>
      (assign rest key value []).map fun inner => entries ++ [(part, table .dotted inner)]
    | some (table .dotted inner) =>
      (assign rest key value inner).map fun inner =>
        replaceEntry part (table .dotted inner) entries
    | some (table .implied inner) =>
      if rest.isEmpty then none
      else
        (assign rest key value inner).map fun inner =>
          replaceEntry part (table .implied inner) entries
    | some (tables items) =>
      if rest.isEmpty then none
      else
        (updateLast (assign rest key value) items).map fun items =>
          replaceEntry part (tables items) entries
    | some _ => none

def updateAt (update : Entries → Option Entries) : List String → Entries → Option Entries
  | [], entries => update entries
  | part :: rest, entries =>
    match entry? part entries with
    | none =>
      (updateAt update rest []).map fun inner => entries ++ [(part, table .implied inner)]
    | some (table .braces _) => none
    | some (table origin inner) =>
      (updateAt update rest inner).map fun inner => replaceEntry part (table origin inner) entries
    | some (tables items) =>
      (updateLast (updateAt update rest) items).map fun items =>
        replaceEntry part (tables items) entries
    | some _ => none

/-- Opens the table of a header: a new one, or one that another header only implied. -/
def openTable (name : String) (entries : Entries) : Option Entries :=
  match entry? name entries with
  | none => some (entries ++ [(name, table .header [])])
  | some (table .implied inner) => some (replaceEntry name (table .header inner) entries)
  | some _ => none

def openElement (name : String) (entries : Entries) : Option Entries :=
  match entry? name entries with
  | none => some (entries ++ [(name, tables [table .header []])])
  | some (tables items) =>
    some (replaceEntry name (tables (items ++ [table .header []])) entries)
  | some _ => none

end Toml

end Crawler
