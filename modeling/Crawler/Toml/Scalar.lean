import Crawler.Number.Numeral
import Crawler.Toml.Basic

/-! Scalars of TOML that stand without quotes: switches, integers, floats, dates and times. The
form of a number is settled when it is read; a number of the right form may still have no value. -/
namespace Crawler.Toml

open Number (Numeral)

/-- Whether each underscore stands between two digits. The switch says whether a digit comes before
the text. -/
def isGrouped (isDigit : Char → Bool) : Bool → List Char → Bool
  | _, [] => true
  | follows, c :: rest =>
    if c = '_' then follows && rest.head?.any isDigit && isGrouped isDigit false rest
    else isGrouped isDigit (isDigit c) rest

def ungroup (source : List Char) : List Char := source.filter (· ≠ '_')

private def isGroupChar (isDigit : Char → Bool) (c : Char) : Bool := isDigit c || c = '_'

def digitValue (c : Char) : Nat :=
  if c.isDigit then c.toNat - '0'.toNat else c.toLower.toNat - 'a'.toNat + 10

def valueInBase (base : Nat) (digits : List Char) : Nat :=
  digits.foldl (fun n c => base * n + digitValue c) 0

def isHexDigit (c : Char) : Bool :=
  c.isDigit || ('a' ≤ c && c ≤ 'f') || ('A' ≤ c && c ≤ 'F')

def isOctalDigit (c : Char) : Bool := '0' ≤ c && c ≤ '7'

def isBinaryDigit (c : Char) : Bool := c = '0' || c = '1'

def ofInt (n : Int) : Toml :=
  if -Nat.pow 2 127 ≤ n ∧ n < Nat.pow 2 128 then integer n else unreadable

def hasSpareZero : List Char → Bool
  | '0' :: _ :: _ => true
  | _ => false

def basedInteger? (base : Nat) (isDigit : Char → Bool) (source : List Char) : Option Toml :=
  if source.all (isGroupChar isDigit) && isGrouped isDigit false source then
    some (if source.isEmpty then unreadable else ofInt (valueInBase base (ungroup source)))
  else none

/-- A decimal integer after its sign. Hexadecimal digits too may stand around its underscores, and
it has no value if it holds more than digits. -/
def decimalInteger? (sign : Option Char) (source : List Char) : Option Toml :=
  if hasSpareZero source || !isGrouped isHexDigit false source then none
  else if source.all (isGroupChar Char.isDigit) then
    let n : Int := valueInBase 10 (ungroup source)
    some (ofInt (if sign = some '-' then -n else n))
  else some unreadable

def ofNumeral (n : Numeral) : Toml := if n.toFloat.isFinite then float n.toFloat else unreadable

def hasWholeFraction (text : List Char) : Bool :=
  match text.dropWhile Char.isDigit with
  | '.' :: rest => rest.head?.any Char.isDigit
  | _ => true

/-- A float after its sign: digits, a point with digits after it, and an exponent. -/
def decimalFloat? (sign : Option Char) (source : List Char) : Option Toml :=
  if hasSpareZero (source.takeWhile (isGroupChar Char.isDigit)) ||
      !isGrouped Char.isDigit false source || !hasWholeFraction (ungroup source) then none
  else (Numeral.decimalOf? (sign = some '-') (ungroup source)).map ofNumeral

/-- A number after its sign. Marks of a base are for integers without a sign. What follows the
leading digits tells the other forms apart: a point or an exponent somewhere makes a float; nothing,
or an underscore at once, an integer. -/
def number? (sign : Option Char) (source : List Char) : Option Toml :=
  let based (base : Nat) (isDigit : Char → Bool) (digits : List Char) :=
    if sign.isNone then basedInteger? base isDigit digits else none
  match source with
  | [] => none
  | ['i', 'n', 'f'] => some (float (Numeral.infinite (sign = some '-')).toFloat)
  | ['n', 'a', 'n'] => some (float Numeral.undefined.toFloat)
  | '0' :: 'x' :: digits => based 16 isHexDigit digits
  | '0' :: 'o' :: digits => based 8 isOctalDigit digits
  | '0' :: 'b' :: digits => based 2 isBinaryDigit digits
  | c :: _ =>
    let rest := source.dropWhile Char.isDigit
    if !c.isDigit || rest.contains ' ' then none
    else if rest.any fun c => c = '.' || c = 'e' || c = 'E' then decimalFloat? sign source
    else if rest.head?.all (· = '_') then decimalInteger? sign source
    else none

def fixedDigits? (n : Nat) (source : List Char) : Option (Nat × List Char) :=
  let digits := source.take n
  if digits.length = n ∧ digits.all Char.isDigit then
    some (valueInBase 10 digits, source.drop n)
  else none

def daysInMonth (year month : Nat) : Nat :=
  if month = 2 then
    if year % 4 = 0 ∧ (year % 100 ≠ 0 ∨ year % 400 = 0) then 29 else 28
  else if month = 4 ∨ month = 6 ∨ month = 9 ∨ month = 11 then 30
  else 31

def afterDate? (source : List Char) : Option (List Char) :=
  match fixedDigits? 4 source with
  | some (year, '-' :: rest) =>
    match fixedDigits? 2 rest with
    | some (month, '-' :: rest) =>
      match fixedDigits? 2 rest with
      | some (day, rest) =>
        if 1 ≤ month ∧ month ≤ 12 ∧ 1 ≤ day ∧ day ≤ daysInMonth year month then some rest else none
      | none => none
    | _ => none
  | _ => none

def afterFraction? : List Char → Option (List Char)
  | '.' :: rest =>
    match rest with
    | c :: _ => if c.isDigit then some (rest.dropWhile Char.isDigit) else none
    | [] => none
  | rest => some rest

/-- What follows a time of day, whose seconds may be left out. -/
def afterTime? (source : List Char) : Option (List Char) :=
  match fixedDigits? 2 source with
  | some (hour, ':' :: rest) =>
    match fixedDigits? 2 rest with
    | some (minute, rest) =>
      if 23 < hour ∨ 59 < minute then none
      else
        match rest with
        | ':' :: rest =>
          match fixedDigits? 2 rest with
          | some (second, rest) => if 60 < second then none else afterFraction? rest
          | none => none
        | _ => some rest
    | none => none
  | _ => none

def isOffset : List Char → Bool
  | [] | ['Z'] | ['z'] => true
  | sign :: rest =>
    (sign = '+' || sign = '-') &&
      match fixedDigits? 2 rest with
      | some (hour, ':' :: rest) =>
        match fixedDigits? 2 rest with
        | some (minute, []) => hour ≤ 23 && minute ≤ 59
        | _ => false
      | _ => false

def isMoment (source : List Char) : Bool :=
  match afterDate? source with
  | some [] => true
  | some (mark :: rest) =>
    (mark = 'T' || mark = 't' || mark = ' ') &&
      match afterTime? rest with
      | some rest => isOffset rest
      | none => false
  | none => afterTime? source == some []

def scalar? (source : List Char) : Option Toml :=
  match source with
  | ['t', 'r', 'u', 'e'] => some (boolean true)
  | ['f', 'a', 'l', 's', 'e'] => some (boolean false)
  | '+' :: body => number? (some '+') body
  | '-' :: body => number? (some '-') body
  | _ =>
    if isMoment source then some (moment (String.ofList source)) else number? none source

end Crawler.Toml
