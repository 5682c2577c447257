import Crawler.Json.Basic

/-! Reading JSON text. An integer is a number without point and exponent that fits 64 bits, signed
or unsigned; every other number is a float, also a zero with a minus sign. -/
namespace Crawler.Json

open Number (Numeral)

def skipBlank : List Char → List Char
  | ' ' :: rest | '\n' :: rest | '\t' :: rest | '\r' :: rest => skipBlank rest
  | source => source

def hexDigit? (c : Char) : Option Nat :=
  if '0' ≤ c ∧ c ≤ '9' then some (c.toNat - '0'.toNat)
  else if 'a' ≤ c ∧ c ≤ 'f' then some (c.toNat - 'a'.toNat + 10)
  else if 'A' ≤ c ∧ c ≤ 'F' then some (c.toNat - 'A'.toNat + 10)
  else none

def codeUnit? : List Char → Option (Nat × List Char)
  | a :: b :: c :: d :: rest => do
    let a ← hexDigit? a
    let b ← hexDigit? b
    let c ← hexDigit? c
    let d ← hexDigit? d
    some (((a * 16 + b) * 16 + c) * 16 + d, rest)
  | _ => none

def isLeading (u : Nat) : Bool := 0xD800 ≤ u && u < 0xDC00

def isTrailing (u : Nat) : Bool := 0xDC00 ≤ u && u < 0xE000

/-- The character of an escape that names code units; half a surrogate pair names none. -/
def escapedUnit? (source : List Char) : Option (Char × List Char) := do
  let (u, rest) ← codeUnit? source
  if isLeading u then
    match rest with
    | '\\' :: 'u' :: rest =>
      let (v, rest) ← codeUnit? rest
      if isTrailing v then
        some (Char.ofNat (0x10000 + (u - 0xD800) * 1024 + (v - 0xDC00)), rest)
      else none
    | _ => none
  else if isTrailing u then none
  else some (Char.ofNat u, rest)

def escaped? : List Char → Option (Char × List Char)
  | '"' :: rest => some ('"', rest)
  | '\\' :: rest => some ('\\', rest)
  | '/' :: rest => some ('/', rest)
  | 'b' :: rest => some ('\x08', rest)
  | 'f' :: rest => some ('\x0c', rest)
  | 'n' :: rest => some ('\n', rest)
  | 'r' :: rest => some ('\r', rest)
  | 't' :: rest => some ('\t', rest)
  | 'u' :: rest => escapedUnit? rest
  | _ => none

/-- The characters up to the closing quote, latest first, before those read so far. -/
def quoted? : Nat → List Char → List Char → Option (List Char × List Char)
  | 0, _, _ => none
  | fuel + 1, read, source =>
    match source with
    | [] => none
    | '"' :: rest => some (read, rest)
    | '\\' :: rest => do
      let (c, rest) ← escaped? rest
      quoted? fuel (c :: read) rest
    | c :: rest => if c.toNat < 0x20 then none else quoted? fuel (c :: read) rest

def textOf? (source : List Char) : Option (String × List Char) :=
  (quoted? (source.length + 1) [] source).map fun (read, rest) => (String.ofList read.reverse, rest)

/-- An integer if it fits 64 bits, signed or unsigned; else the nearest float. -/
def ofIntegerText (negative : Bool) (digits : Nat) : Json :=
  if negative then
    if digits = 0 ∨ Int64.minValue.toInt.natAbs < digits then
      float (Numeral.decimal true digits 0).toFloat
    else integer (-(digits : Int))
  else if digits < UInt64.size then integer digits
  else float (Numeral.decimal false digits 0).toFloat

/-- The exponent of a number and the rest of the text; none if a mark has no digits. -/
def exponent? : List Char → Option (Option Int × List Char)
  | mark :: rest =>
    if mark = 'e' ∨ mark = 'E' then
      let (negative, rest) := Numeral.splitSign rest
      let (digits, rest) := Numeral.splitDigits rest
      if digits.isEmpty then none
      else
        let n : Int := Numeral.digitsValue digits
        some (some (if negative then -n else n), rest)
    else some (none, mark :: rest)
  | [] => some (none, [])

def numberOf? (source : List Char) : Option (Json × List Char) :=
  let (negative, unsigned) :=
    match source with
    | '-' :: rest => (true, rest)
    | _ => (false, source)
  let (whole, rest) := Numeral.splitDigits unsigned
  if whole.isEmpty ∨ (1 < whole.length ∧ whole.head? = some '0') then none
  else
    let fraction : Option (Option (List Char) × List Char) :=
      match rest with
      | '.' :: rest =>
        let (digits, rest) := Numeral.splitDigits rest
        if digits.isEmpty then none else some (some digits, rest)
      | _ => some (none, rest)
    match fraction with
    | none => none
    | some (fraction, rest) =>
      match exponent? rest with
      | none => none
      | some (exponent, rest) =>
        match fraction, exponent with
        | none, none => some (ofIntegerText negative (Numeral.digitsValue whole), rest)
        | _, _ =>
          let digits := fraction.getD []
          let n := Numeral.decimal negative (Numeral.digitsValue (whole ++ digits))
            (exponent.getD 0 - digits.length)
          some (float n.toFloat, rest)

mutual

def valueOf? : Nat → List Char → Option (Json × List Char)
  | 0, _ => none
  | fuel + 1, source =>
    match skipBlank source with
    | 'n' :: 'u' :: 'l' :: 'l' :: rest => some (null, rest)
    | 't' :: 'r' :: 'u' :: 'e' :: rest => some (bool true, rest)
    | 'f' :: 'a' :: 'l' :: 's' :: 'e' :: rest => some (bool false, rest)
    | '"' :: rest => (textOf? rest).map fun (s, rest) => (text s, rest)
    | '[' :: rest =>
      match skipBlank rest with
      | ']' :: rest => some (array [], rest)
      | rest => (itemsOf? fuel [] rest).map fun (items, rest) => (array items, rest)
    | '{' :: rest =>
      match skipBlank rest with
      | '}' :: rest => some (object [], rest)
      | rest => (membersOf? fuel [] rest).map fun (members, rest) => (object members, rest)
    | rest => numberOf? rest

def itemsOf? : Nat → List Json → List Char → Option (List Json × List Char)
  | 0, _, _ => none
  | fuel + 1, read, source =>
    match valueOf? fuel source with
    | none => none
    | some (item, rest) =>
      match skipBlank rest with
      | ',' :: rest => itemsOf? fuel (item :: read) rest
      | ']' :: rest => some ((item :: read).reverse, rest)
      | _ => none

def membersOf? :
    Nat → List (String × Json) → List Char → Option (List (String × Json) × List Char)
  | 0, _, _ => none
  | fuel + 1, read, source =>
    match skipBlank source with
    | '"' :: rest =>
      match textOf? rest with
      | none => none
      | some (name, rest) =>
        match skipBlank rest with
        | ':' :: rest =>
          match valueOf? fuel rest with
          | none => none
          | some (value, rest) =>
            match skipBlank rest with
            | ',' :: rest => membersOf? fuel ((name, value) :: read) rest
            | '}' :: rest => some (((name, value) :: read).reverse, rest)
            | _ => none
        | _ => none
    | _ => none

end

def read? (source : String) : Option Json :=
  match valueOf? (source.length + 1) source.toList with
  | some (value, rest) => if (skipBlank rest).isEmpty then some value else none
  | none => none

end Crawler.Json
