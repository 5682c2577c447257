import Crawler.Json.Basic

/-! Writing JSON text, on one line or indented. Members of an object are written in the order of
their names; a float without digits is written as null. -/
namespace Crawler.Json

def escape : Char → List Char
  | '"' => ['\\', '"']
  | '\\' => ['\\', '\\']
  | '\n' => ['\\', 'n']
  | '\r' => ['\\', 'r']
  | '\t' => ['\\', 't']
  | '\x08' => ['\\', 'b']
  | '\x0c' => ['\\', 'f']
  | c =>
    if c.toNat < 0x20 then
      ['\\', 'u', '0', '0', Nat.digitChar (c.toNat / 16), Nat.digitChar (c.toNat % 16)]
    else [c]

def quote (s : String) : String := String.ofList ('"' :: (s.toList.flatMap escape ++ ['"']))

/-- A float as a number, or null if it has no digits. -/
def writeFloat (x : Float) : String := if x.isFinite then Number.write .report x else "null"

/-- Members in the order of their names; of several with one name the last one counts. -/
def sortMembers {α : Type} (members : List (String × α)) : List (String × α) :=
  let distinct := members.foldr (fun m kept => if kept.any (·.1 = m.1) then kept else m :: kept) []
  distinct.mergeSort fun a b => decide (a.1 ≤ b.1)

structure Layout where
  /-- Between the bracket that opens a value of some depth and its first part. -/
  opening : Nat → String
  /-- Between the last part of a value of some depth and its closing bracket. -/
  closing : Nat → String
  colon : String

def Layout.compact : Layout := ⟨fun _ => "", fun _ => "", ":"⟩

def Layout.indented : Layout :=
  let line (n : Nat) := "\n" ++ String.ofList (List.replicate (2 * n) ' ')
  ⟨fun depth => line (depth + 1), line, ": "⟩

mutual

def writeAt (layout : Layout) (depth : Nat) : Json → String
  | null => "null"
  | bool true => "true"
  | bool false => "false"
  | integer n => toString n
  | float x => writeFloat x
  | text s => quote s
  | array [] => "[]"
  | array (item :: items) =>
    let parts := writeItems layout (depth + 1) (item :: items)
    "[" ++ layout.opening depth ++ ("," ++ layout.opening depth).intercalate parts ++
      layout.closing depth ++ "]"
  | object [] => "\x7b\x7d"
  | object (m :: members) =>
    let parts := (sortMembers (writeMembers layout (depth + 1) (m :: members))).map
      fun (name, value) => quote name ++ layout.colon ++ value
    "\x7b" ++ layout.opening depth ++ ("," ++ layout.opening depth).intercalate parts ++
      layout.closing depth ++ "\x7d"

def writeItems (layout : Layout) (depth : Nat) : List Json → List String
  | [] => []
  | item :: items => writeAt layout depth item :: writeItems layout depth items

def writeMembers (layout : Layout) (depth : Nat) :
    List (String × Json) → List (String × String)
  | [] => []
  | (name, value) :: members =>
    (name, writeAt layout depth value) :: writeMembers layout depth members

end

def write (layout : Layout) (value : Json) : String := writeAt layout 0 value

end Crawler.Json
