/-! Blank characters: those with the Unicode property of white space. -/
namespace Crawler.Text

def blankRanges : List (Nat × Nat) :=
  [(0x09, 0x0D), (0x20, 0x20), (0x85, 0x85), (0xA0, 0xA0), (0x1680, 0x1680), (0x2000, 0x200A),
    (0x2028, 0x2029), (0x202F, 0x202F), (0x205F, 0x205F), (0x3000, 0x3000)]

def isBlank (c : Char) : Bool :=
  blankRanges.any fun (first, last) => first ≤ c.toNat && c.toNat ≤ last

def trim (text : String) : String :=
  String.ofList ((text.toList.dropWhile isBlank).reverse.dropWhile isBlank).reverse

/-- The small form of a letter, for comparison with names in plain Latin letters. Beside the capital
letters only the Kelvin sign has a plain Latin small form. -/
def foldLetter (c : Char) : Char := if c = '\u212a' then 'k' else c.toLower

end Crawler.Text
