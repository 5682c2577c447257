import Crawler.Number.Notation

/-! Writing TOML keys and scalars. A key stands without quotes if it can, else in the quotes that
need no escapes, else with escapes. -/
namespace Crawler.Toml

def isControl (c : Char) : Bool := (c.toNat < 0x20 || c.toNat = 0x7F) && c ≠ '\t'

def fourDigits (n : Nat) : List Char :=
  [n / 4096 % 16, n / 256 % 16, n / 16 % 16, n % 16].map fun d => (Nat.digitChar d).toUpper

def escape : Char → List Char
  | '\x08' => ['\\', 'b']
  | '\t' => ['\\', 't']
  | '\n' => ['\\', 'n']
  | '\x0c' => ['\\', 'f']
  | '\r' => ['\\', 'r']
  | '"' => ['\\', '"']
  | '\\' => ['\\', '\\']
  | c => if isControl c then '\\' :: 'u' :: fourDigits c.toNat else [c]

def isBareKey (key : List Char) : Bool :=
  !key.isEmpty && key.all fun c => c.isAlphanum || c = '_' || c = '-'

def writeKey (key : String) : List Char :=
  let chars := key.toList
  if isBareKey chars then chars
  else if chars.any isControl then '"' :: (chars.flatMap escape ++ ['"'])
  else if !chars.any fun c => c = '"' || c = '\\' then '"' :: (chars.flatMap escape ++ ['"'])
  else if !chars.any (· = '\'') then '\'' :: (chars ++ ['\''])
  else '"' :: (chars.flatMap escape ++ ['"'])

def writeBool (b : Bool) : List Char := (if b then "true" else "false").toList

def writeInteger (n : Int) : List Char := (toString n).toList

def writeFloat (x : Float) : List Char := (Number.write .document x).toList

end Crawler.Toml
