import Crawler.Toml.Scalar

/-! Reading TOML documents. A document is a row of statements: a header opens a table, and a line
with a key gives a value to that key in the table opened last. -/
namespace Crawler.Toml

def isPrintable (c : Char) : Bool := c = '\t' || (0x20 ≤ c.toNat && c.toNat ≠ 0x7F)

def isSpace (c : Char) : Bool := c = ' ' || c = '\t'

def skipSpace (source : List Char) : List Char := source.dropWhile isSpace

def afterBreak? : List Char → Option (List Char)
  | '\n' :: rest | '\r' :: '\n' :: rest => some rest
  | _ => none

def skipComment : List Char → List Char
  | '#' :: rest => rest.dropWhile isPrintable
  | source => source

def afterLine? (source : List Char) : Option (List Char) :=
  match skipComment (skipSpace source) with
  | [] => some []
  | rest => afterBreak? rest

/-- Skips blanks, line breaks and comments. The switch says whether the text starts in a comment. -/
def skipGap : Bool → List Char → List Char
  | _, '\n' :: rest | _, '\r' :: '\n' :: rest => skipGap false rest
  | true, c :: rest => if isPrintable c then skipGap true rest else c :: rest
  | false, '#' :: rest => skipGap true rest
  | false, c :: rest => if isSpace c then skipGap false rest else c :: rest
  | _, [] => []

def namedChar? (count : Nat) (source : List Char) : Option (Char × List Char) :=
  let digits := source.take count
  let code := valueInBase 16 digits
  if digits.length = count ∧ digits.all isHexDigit ∧
      (code < 0xD800 ∨ 0xDFFF < code) ∧ code < 0x110000 then
    some (Char.ofNat code, source.drop count)
  else none

def escaped? : List Char → Option (Char × List Char)
  | 'b' :: rest => some ('\x08', rest)
  | 't' :: rest => some ('\t', rest)
  | 'n' :: rest => some ('\n', rest)
  | 'f' :: rest => some ('\x0c', rest)
  | 'r' :: rest => some ('\r', rest)
  | 'e' :: rest => some ('\x1b', rest)
  | '"' :: rest => some ('"', rest)
  | '\\' :: rest => some ('\\', rest)
  | 'x' :: rest => namedChar? 2 rest
  | 'u' :: rest => namedChar? 4 rest
  | 'U' :: rest => namedChar? 8 rest
  | _ => none

def basicText? : Nat → List Char → Option (List Char × List Char)
  | 0, _ => none
  | fuel + 1, source =>
    match source with
    | '"' :: rest => some ([], rest)
    | '\\' :: rest =>
      match escaped? rest with
      | none => none
      | some (c, rest) => (basicText? fuel rest).map fun (s, rest) => (c :: s, rest)
    | c :: rest =>
      if isPrintable c then (basicText? fuel rest).map fun (s, rest) => (c :: s, rest) else none
    | [] => none

def literalText? (source : List Char) : Option (List Char × List Char) :=
  let isPart (c : Char) := c ≠ '\'' && isPrintable c
  match source.dropWhile isPart with
  | '\'' :: rest => some (source.takeWhile isPart, rest)
  | _ => none

/-- What follows a backslash that ends a line: the next line from its first visible character. -/
def afterJoin? (fuel : Nat) (source : List Char) : Option (List Char) :=
  let rec go : Nat → List Char → List Char
    | 0, rest => rest
    | fuel + 1, rest =>
      match afterBreak? (skipSpace rest) with
      | some rest => go fuel rest
      | none => skipSpace rest
  (afterBreak? (skipSpace source)).map (go fuel)

/-- Text of several lines up to three closing quotes; up to two more belong to the text. Line breaks
stay as they are written. -/
def longText? (quote : Char) : Nat → List Char → Option (List Char × List Char)
  | 0, _ => none
  | fuel + 1, source =>
    let quotes := (source.takeWhile (· = quote)).length
    if 3 ≤ quotes then
      if quotes ≤ 5 then some (List.replicate (quotes - 3) quote, source.drop quotes) else none
    else
      match source with
      | [] => none
      | '\r' :: '\n' :: rest =>
        (longText? quote fuel rest).map fun (s, rest) => ('\r' :: '\n' :: s, rest)
      | c :: rest =>
        if c = '\\' ∧ quote = '"' then
          match afterJoin? fuel rest with
          | some rest => longText? quote fuel rest
          | none =>
            match escaped? rest with
            | none => none
            | some (c, rest) => (longText? quote fuel rest).map fun (s, rest) => (c :: s, rest)
        else if c = '\n' ∨ isPrintable c then
          (longText? quote fuel rest).map fun (s, rest) => (c :: s, rest)
        else none

def quoted? (source : List Char) : Option (String × List Char) :=
  let fuel := source.length + 1
  let long (quote : Char) (rest : List Char) :=
    longText? quote fuel ((afterBreak? rest).getD rest)
  let read :=
    match source with
    | '"' :: '"' :: '"' :: rest => long '"' rest
    | '\'' :: '\'' :: '\'' :: rest => long '\'' rest
    | '"' :: rest => basicText? fuel rest
    | '\'' :: rest => literalText? rest
    | _ => none
  read.map fun (s, rest) => (String.ofList s, rest)

def isBareChar (c : Char) : Bool := c.isAlphanum || c = '_' || c = '-'

def keyPart? (source : List Char) : Option (String × List Char) :=
  match source with
  | '"' :: rest =>
    (basicText? (rest.length + 1) rest).map fun (s, rest) => (String.ofList s, rest)
  | '\'' :: rest => (literalText? rest).map fun (s, rest) => (String.ofList s, rest)
  | _ =>
    let name := source.takeWhile isBareChar
    if name.isEmpty then none else some (String.ofList name, source.dropWhile isBareChar)

def maxParts : Nat := 80

/-- A key with at most some number of parts: those before its last one, the last one, and the rest
of the text. -/
def key? : Nat → List Char → Option (List String × String × List Char)
  | 0, _ => none
  | count + 1, source =>
    match keyPart? source with
    | none => none
    | some (part, rest) =>
      match skipSpace rest with
      | '.' :: rest =>
        (key? count (skipSpace rest)).map fun (path, last, rest) => (part :: path, last, rest)
      | _ => some ([], part, rest)

def isScalarChar (c : Char) : Bool :=
  c ∉ ['=', ',', '[', ']', '\x7b', '\x7d', ' ', '\t', '#', '\r', '\n']

/-- The scalar at the start of a text and the rest of the text. Blanks in front of more of it, but
not in front of a quote, belong to it. -/
def splitScalar : List Char → List Char × List Char
  | [] => ([], [])
  | c :: rest =>
    let goesOn := (skipSpace rest).head?.any fun c => isScalarChar c && c ≠ '"' && c ≠ '\''
    if isScalarChar c || (isSpace c && goesOn) then
      let (source, after) := splitScalar rest
      (c :: source, after)
    else ([], c :: rest)

def plainScalar? (source : List Char) : Option (Toml × List Char) :=
  (scalar? (splitScalar source).1).map fun value => (value, (splitScalar source).2)

mutual

/-- The value at the start of a text and the rest of the text. The second bound is on the depth of
arrays and tables in each other. -/
def value? : Nat → Nat → List Char → Option (Toml × List Char)
  | 0, _, _ => none
  | fuel + 1, depth, source =>
    match source with
    | '"' :: _ | '\'' :: _ => (quoted? source).map fun (s, rest) => (text s, rest)
    | '[' :: rest =>
      match depth with
      | 0 => none
      | depth + 1 => (items? fuel depth rest).map fun (items, rest) => (array items, rest)
    | '\x7b' :: rest =>
      match depth with
      | 0 => none
      | depth + 1 =>
        (members? fuel depth [] rest).map fun (entries, rest) => (table .braces entries, rest)
    | _ => plainScalar? source

def items? : Nat → Nat → List Char → Option (List Toml × List Char)
  | 0, _, _ => none
  | fuel + 1, depth, source =>
    match skipGap false source with
    | ']' :: rest => some ([], rest)
    | start =>
      match value? fuel depth start with
      | none => none
      | some (item, rest) =>
        match skipGap false rest with
        | ',' :: rest => (items? fuel depth rest).map fun (items, rest) => (item :: items, rest)
        | ']' :: rest => some ([item], rest)
        | _ => none

def members? : Nat → Nat → Entries → List Char → Option (Entries × List Char)
  | 0, _, _, _ => none
  | fuel + 1, depth, entries, source =>
    match skipGap false source with
    | '\x7d' :: rest => some (entries, rest)
    | start =>
      match key? maxParts start with
      | none => none
      | some (path, last, rest) =>
        match skipGap false rest with
        | '=' :: rest =>
          match value? fuel depth (skipGap false rest) with
          | none => none
          | some (value, rest) =>
            match assign path last value entries with
            | none => none
            | some entries =>
              match skipGap false rest with
              | ',' :: rest => members? fuel depth entries rest
              | '\x7d' :: rest => some (entries, rest)
              | _ => none
        | _ => none

end

def maxDepth : Nat := 80

/-- A document read in part: its entries, and the path of the table opened last. -/
structure Draft where
  entries : Entries
  path : List String

def assignment? (source : List Char) : Option (List String × String × Toml × List Char) :=
  match key? maxParts source with
  | none => none
  | some (path, last, rest) =>
    match skipSpace rest with
    | '=' :: rest =>
      (value? (rest.length + 1) maxDepth (skipSpace rest)).map fun (value, rest) =>
        (path, last, value, rest)
    | _ => none

def header? (source : List Char) : Option (Bool × List String × String × List Char) :=
  let closing (element : Bool) (source : List Char) :=
    match key? maxParts (skipSpace source) with
    | none => none
    | some (path, last, rest) =>
      match element, skipSpace rest with
      | false, ']' :: rest => some (false, path, last, rest)
      | true, ']' :: ']' :: rest => some (true, path, last, rest)
      | _, _ => none
  match source with
  | '[' :: '[' :: rest => closing true rest
  | '[' :: rest => closing false rest
  | _ => none

def statement? (draft : Draft) (source : List Char) : Option (Draft × List Char) :=
  match source with
  | '[' :: _ =>
    match header? source with
    | none => none
    | some (element, path, last, rest) =>
      (updateAt (if element then openElement last else openTable last) path draft.entries).map
        fun entries => (⟨entries, path ++ [last]⟩, rest)
  | _ =>
    match assignment? source with
    | none => none
    | some (path, last, value, rest) =>
      (updateAt (assign path last value) draft.path draft.entries).map
        fun entries => (⟨entries, draft.path⟩, rest)

def statements? : Nat → Draft → List Char → Option Draft
  | 0, _, _ => none
  | fuel + 1, draft, source =>
    match skipGap false source with
    | [] => some draft
    | start =>
      match statement? draft start with
      | none => none
      | some (draft, rest) =>
        match afterLine? rest with
        | none => none
        | some rest => statements? fuel draft rest

/-- The entries of a document; a mark of its byte order may stand before it. -/
def read? (source : String) : Option Entries :=
  let chars :=
    match source.toList with
    | '\ufeff' :: rest => rest
    | chars => chars
  (statements? (chars.length + 1) ⟨[], []⟩ chars).map (·.entries)

end Crawler.Toml
