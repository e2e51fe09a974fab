import PlatformClient.Number.Binary64
import PlatformClient.Text.Utf8
import PlatformClient.Toml.Draft

namespace PlatformClient.Toml

/-- A reader takes a value from the front of a text and leaves the rest. -/
abbrev Reader (α : Type) := List Char → Option (α × List Char)

def isSpace (c : Char) : Bool := c == ' ' || c == '\t'

def skipSpaces (cs : List Char) : List Char := cs.dropWhile isSpace

def isBareKeyChar (c : Char) : Bool := c.isAlphanum || c == '-' || c == '_'

/-- What may stand in a comment, and in strings unless it marks their end. -/
def isPlainChar (c : Char) : Bool := c == '\t' || (0x20 ≤ c.toNat && c.toNat != 0x7F)

def isDigitOf (base : Nat) (c : Char) : Bool :=
  if base = 16 then c.isDigit || ('a' ≤ c && c ≤ 'f') || ('A' ≤ c && c ≤ 'F')
  else c.isDigit && c.toNat - 48 < base

def digitValue (c : Char) : Nat :=
  if c.isDigit then c.toNat - 48 else if 'a' ≤ c then c.toNat - 87 else c.toNat - 55

def numeral (base : Nat) (digits : List Char) : Nat :=
  digits.foldl (fun value c => value * base + digitValue c) 0

/-- The character of a number written with hexadecimal digits. -/
def scalar? (digits : List Char) : Option Char :=
  if digits.all (isDigitOf 16) then
    let n := numeral 16 digits
    if n.isValidChar then some (Char.ofNat n) else none
  else none

def shortEscape : Char → Option Char
  | 'b' => some (Char.ofNat 8)
  | 't' => some '\t'
  | 'n' => some '\n'
  | 'f' => some (Char.ofNat 12)
  | 'r' => some '\r'
  | '"' => some '"'
  | '\\' => some '\\'
  | _ => none

/-- Goes on behind a backslash: the character that the escape stands for and
the rest. -/
def escape : Reader Char
  | 'u' :: a :: b :: c :: d :: rest => (scalar? [a, b, c, d]).map (·, rest)
  | 'U' :: a :: b :: c :: d :: e :: f :: g :: h :: rest =>
    (scalar? [a, b, c, d, e, f, g, h]).map (·, rest)
  | c :: rest => (shortEscape c).map (·, rest)
  | [] => none

/-- How many characters of an escape follow its backslash. -/
def escapeLength : List Char → Nat
  | 'u' :: _ => 5
  | 'U' :: _ => 9
  | _ => 1

/-- A string between double quotes, behind the first of them. The number says
how many characters belong to an escape that has been read. -/
def basicString : Nat → Reader (List Char)
  | _, [] => none
  | skipped + 1, _ :: rest => basicString skipped rest
  | 0, c :: rest =>
    if c = '"' then some ([], rest)
    else if c = '\\' then do
      let (value, _) ← escape rest
      let (more, rest) ← basicString (escapeLength rest) rest
      return (value :: more, rest)
    else if isPlainChar c then do
      let (more, rest) ← basicString 0 rest
      return (c :: more, rest)
    else none

/-- A string between single quotes, behind the first of them. -/
def literalString : Reader (List Char)
  | [] => none
  | c :: rest =>
    if c = '\'' then some ([], rest)
    else if isPlainChar c then do
      let (more, rest) ← literalString rest
      return (c :: more, rest)
    else none

/-- The end of a string in triple quotes, behind three of them: up to two
quotes more belong to the string, as the last three end it. -/
def tripleEnd (quote : Char) (rest : List Char) : List Char × List Char :=
  match rest with
  | a :: b :: more =>
    if a = quote ∧ b = quote then ([quote, quote], more)
    else if a = quote then ([quote], b :: more)
    else ([], rest)
  | [a] => if a = quote then ([quote], []) else ([], [a])
  | [] => ([], [])

/-- A backslash at the end of a line, of which the rest holds only spaces. -/
def endsLine (rest : List Char) : Bool :=
  match skipSpaces rest with
  | '\n' :: _ => true
  | '\r' :: '\n' :: _ => true
  | _ => false

/-- A string between triple double quotes, behind the first of them and a line
end. In `folding`, blanks and line ends up to the next character are left
out. -/
def tripleBasic : Nat → Bool → Reader (List Char)
  | _, _, [] => none
  | skipped + 1, folding, _ :: rest => tripleBasic skipped folding rest
  | 0, folding, c :: rest =>
    if folding ∧ (isSpace c ∨ c = '\n') then tripleBasic 0 true rest
    else if c = '\r' then
      match rest with
      | '\n' :: rest =>
        if folding then tripleBasic 0 true rest
        else do
          let (more, rest) ← tripleBasic 0 false rest
          return ('\n' :: more, rest)
      | _ => none
    else if c = '"' then
      match rest with
      | '"' :: '"' :: rest => some (tripleEnd '"' rest)
      | rest => do
        let (more, rest) ← tripleBasic 0 false rest
        return ('"' :: more, rest)
    else if c = '\\' then
      if endsLine rest then tripleBasic 0 true rest
      else do
        let (value, _) ← escape rest
        let (more, rest) ← tripleBasic (escapeLength rest) false rest
        return (value :: more, rest)
    else if isPlainChar c ∨ c = '\n' then do
      let (more, rest) ← tripleBasic 0 false rest
      return (c :: more, rest)
    else none

/-- A string between triple single quotes, behind the first of them and a line
end. -/
def tripleLiteral : Reader (List Char)
  | [] => none
  | c :: rest =>
    if c = '\r' then
      match rest with
      | '\n' :: rest => do
        let (more, rest) ← tripleLiteral rest
        return ('\n' :: more, rest)
      | _ => none
    else if c = '\'' then
      match rest with
      | '\'' :: '\'' :: rest => some (tripleEnd '\'' rest)
      | rest => do
        let (more, rest) ← tripleLiteral rest
        return ('\'' :: more, rest)
    else if isPlainChar c ∨ c = '\n' then do
      let (more, rest) ← tripleLiteral rest
      return (c :: more, rest)
    else none

/-- A line end right behind opening triple quotes is no part of the string. -/
def skipFirstLineEnd : List Char → List Char
  | '\n' :: rest => rest
  | '\r' :: '\n' :: rest => rest
  | rest => rest

/-- A string on one line. -/
def lineString : Reader String
  | '"' :: rest => (basicString 0 rest).map fun (cs, rest) => (String.ofList cs, rest)
  | '\'' :: rest => (literalString rest).map fun (cs, rest) => (String.ofList cs, rest)
  | _ => none

def anyString : Reader String
  | '"' :: '"' :: '"' :: rest =>
    (tripleBasic 0 false (skipFirstLineEnd rest)).map fun (cs, rest) => (String.ofList cs, rest)
  | '\'' :: '\'' :: '\'' :: rest =>
    (tripleLiteral (skipFirstLineEnd rest)).map fun (cs, rest) => (String.ofList cs, rest)
  | rest => lineString rest

/-- One part of a key. -/
def simpleKey : Reader String
  | [] => none
  | c :: rest =>
    if c = '"' ∨ c = '\'' then lineString (c :: rest)
    else match (c :: rest).takeWhile isBareKeyChar with
      | [] => none
      | name => some (String.ofList name, (c :: rest).dropWhile isBareKeyChar)

/-- The parts of a key between its dots. -/
def dottedKey : Nat → Reader (List String)
  | 0, _ => none
  | limit + 1, cs => do
    let (first, rest) ← simpleKey (skipSpaces cs)
    match skipSpaces rest with
    | '.' :: rest =>
      let (more, rest) ← dottedKey limit rest
      return (first :: more, rest)
    | rest => return ([first], rest)

/-- How many parts a key may have, and how deep values may be nested. -/
def depthLimit : Nat := 79

def key : Reader (List String) := dottedKey depthLimit

/-- Digits in which single underscores may stand between two digits. -/
def digitRun (base : Nat) : Bool → Reader (List Char)
  | behind, [] => if behind then some ([], []) else none
  | behind, c :: rest =>
    if isDigitOf base c then do
      let (more, rest) ← digitRun base true rest
      return (c :: more, rest)
    else if behind = false then none
    else if c = '_' then
      match rest with
      | d :: _ => if isDigitOf base d then digitRun base false rest else none
      | [] => none
    else some ([], c :: rest)

/-- The digits of a decimal number, which begin with a zero only when they
are one. -/
def decimalDigits : Reader (List Char)
  | '0' :: rest => some (['0'], rest)
  | rest => digitRun 10 false rest

def sign : List Char → Bool × List Char
  | '+' :: rest => (false, rest)
  | '-' :: rest => (true, rest)
  | rest => (false, rest)

def inRange (value : Int) : Bool := -0x8000000000000000 ≤ value && value < 0x8000000000000000

def based (base : Nat) (cs : List Char) : Option (Toml × List Char) := do
  let (digits, rest) ← digitRun base false cs
  if inRange (numeral base digits) then some (.integer (numeral base digits), rest) else none

/-- The exponent of a float, behind its letter. -/
def exponent (cs : List Char) : Option (Int × List Char) := do
  let (negative, rest) := sign cs
  let (digits, rest) ← digitRun 10 false rest
  return (if negative then -(numeral 10 digits : Int) else numeral 10 digits, rest)

/-- Whether a positive decimal is too large for a float. -/
def overflows (digits : Nat) (places : Int) : Bool :=
  if (Nat.toDigits 10 digits).length + places < 300 then false
  else if digits = 0 then false
  else if 400 < places then true
  else (Binary64.ofRatio (digits * Nat.pow 10 places.toNat) (Nat.pow 10 (-places).toNat)).isNone

/-- A float, of which the digits before the point have been read. -/
def floatRest (negative : Bool) (whole : List Char) (start rest : List Char) :
    Option (Toml × List Char) := do
  let (fraction, rest) ← match rest with
    | '.' :: rest => digitRun 10 false rest
    | rest => some ([], rest)
  let (power, rest) ← match rest with
    | 'e' :: rest => exponent rest
    | 'E' :: rest => exponent rest
    | rest => some (0, rest)
  if negative = false ∧ overflows (numeral 10 (whole ++ fraction)) (power - fraction.length) then none
  else some (.float (String.ofList (start.take (start.length - rest.length))), rest)

/-- An integer or a float. -/
def number (cs : List Char) : Option (Toml × List Char) :=
  match cs with
  | '0' :: 'x' :: rest => based 16 rest
  | '0' :: 'o' :: rest => based 8 rest
  | '0' :: 'b' :: rest => based 2 rest
  | _ =>
    let (negative, rest) := sign cs
    match rest with
    | 'i' :: 'n' :: 'f' :: rest => some (.float "inf", rest)
    | 'n' :: 'a' :: 'n' :: rest => some (.float "nan", rest)
    | _ => do
      let (digits, rest) ← decimalDigits rest
      match rest with
      | '.' :: _ => floatRest negative digits cs rest
      | 'e' :: _ => floatRest negative digits cs rest
      | 'E' :: _ => floatRest negative digits cs rest
      | _ =>
        let value : Int := if negative then -(numeral 10 digits : Int) else numeral 10 digits
        if inRange value then some (.integer value, rest) else none

/-- Two digits of a value in the given bounds. -/
def twoDigits (low high : Nat) : Reader Nat
  | a :: b :: rest =>
    let n := numeral 10 [a, b]
    if a.isDigit && b.isDigit && low ≤ n && n ≤ high then some (n, rest) else none
  | _ => none

def daysIn (year month : Nat) : Nat :=
  if month = 2 then
    if year % 4 = 0 ∧ (year % 100 ≠ 0 ∨ year % 400 = 0) then 29 else 28
  else if month = 4 ∨ month = 6 ∨ month = 9 ∨ month = 11 then 30
  else 31

/-- The minutes, seconds and fraction of a time of day, behind its hour. -/
def timeRest : List Char → Option (List Char)
  | ':' :: rest => do
    let (_, rest) ← twoDigits 0 59 rest
    match rest with
    | ':' :: rest => do
      let (_, rest) ← twoDigits 0 60 rest
      match rest with
      | '.' :: c :: rest => if c.isDigit then some (rest.dropWhile Char.isDigit) else none
      | ['.'] => none
      | rest => some rest
    | _ => none
  | _ => none

/-- The distance of a time of day from universal time, where it is given. -/
def timeOffset : List Char → Option (List Char)
  | 'Z' :: rest => some rest
  | 'z' :: rest => some rest
  | c :: rest =>
    if c = '+' ∨ c = '-' then
      match twoDigits 0 23 rest with
      | some (_, ':' :: rest) => (twoDigits 0 59 rest).map (·.2)
      | _ => none
    else some (c :: rest)
  | [] => some []

/-- A date, behind its year, and the time of day that may follow it. -/
def dateRest (year : Nat) (cs : List Char) : Option (List Char) := do
  let (month, rest) ← twoDigits 1 12 cs
  match rest with
  | '-' :: rest => do
    let (_, rest) ← twoDigits 1 (daysIn year month) rest
    match rest with
    | c :: time =>
      if c = 'T' ∨ c = 't' ∨ c = ' ' then
        match twoDigits 0 23 time with
        | some (_, ':' :: more) => do timeOffset (← timeRest (':' :: more))
        | _ => some rest
      else some rest
    | [] => some []
  | _ => none

/-- The text of a moment, up to the rest of the line. -/
def momentBefore (start : List Char) (rest : List Char) : Toml × List Char :=
  (.moment (String.ofList (start.take (start.length - rest.length))), rest)

/-- A value that begins with a digit or a sign: a date, a time of day or a
number. -/
def numeric (cs : List Char) : Option (Toml × List Char) :=
  match cs with
  | a :: b :: c :: d :: '-' :: rest =>
    if a.isDigit && b.isDigit && c.isDigit && d.isDigit then
      (dateRest (numeral 10 [a, b, c, d]) rest).map (momentBefore cs)
    else number cs
  | a :: b :: ':' :: rest =>
    if a.isDigit && b.isDigit then do
      let (_, _) ← twoDigits 0 23 [a, b]
      (timeRest (':' :: rest)).map (momentBefore cs)
    else number cs
  | _ => number cs

/-- Skips blanks, line ends and comments between the items of a list. -/
def skipFiller : Bool → List Char → Option (List Char)
  | _, [] => some []
  | true, '\r' :: '\n' :: rest => skipFiller false rest
  | true, c :: rest =>
    if c = '\n' then skipFiller false rest
    else if isPlainChar c then skipFiller true rest
    else none
  | false, '\r' :: '\n' :: rest => skipFiller false rest
  | false, c :: rest =>
    if isSpace c ∨ c = '\n' then skipFiller false rest
    else if c = '#' then skipFiller true rest
    else some (c :: rest)

/-- The items of a list behind its opening bracket. A comma may follow the
last one. -/
def listItems (item : Reader Toml) : Nat → Reader (List Toml)
  | 0, _ => none
  | fuel + 1, cs => do
    match ← skipFiller false cs with
    | ']' :: rest => return ([], rest)
    | rest =>
      let (first, rest) ← item rest
      match ← skipFiller false rest with
      | ',' :: rest =>
        let (more, rest) ← listItems item fuel rest
        return (first :: more, rest)
      | ']' :: rest => return ([first], rest)
      | _ => none

/-- Splits a key into the path to its table and its last part. -/
def splitKey (parts : List String) : Option (List String × String) :=
  parts.getLast?.map fun last => (parts.dropLast, last)

/-- A key, an equals sign and a value. -/
def pair (value : Reader Toml) : Reader (List String × Toml) := fun cs => do
  let (parts, rest) ← key cs
  match rest with
  | '=' :: rest =>
    let (value, rest) ← value (skipSpaces rest)
    return ((parts, value), rest)
  | _ => none

/-- The pairs of a table on one line, behind its opening brace. -/
def inlinePairs (value : Reader Toml) : Nat → Draft.Entries → Reader Draft.Entries
  | 0, _, _ => none
  | fuel + 1, entries, cs => do
    let ((parts, value'), rest) ← pair value cs
    let (path, last) ← splitKey parts
    let entries ← Draft.assign path last value' .header entries
    match skipSpaces rest with
    | ',' :: rest => inlinePairs value fuel entries rest
    | '\x7d' :: rest => return (entries, rest)
    | _ => none

/-- A value in which lists and tables are nested at most `depth` deep. -/
def value : Nat → Reader Toml
  | depth, cs =>
    match cs with
    | [] => none
    | '[' :: rest =>
      match depth with
      | 0 => none
      | depth + 1 =>
        (listItems (value depth) (rest.length + 1) rest).map fun (items, rest) =>
          (.array items, rest)
    | '\x7b' :: rest =>
      match depth with
      | 0 => none
      | depth + 1 =>
        match skipSpaces rest with
        | '\x7d' :: rest => some (.table [], rest)
        | rest =>
          (inlinePairs (value depth) (rest.length + 1) [] rest).map fun (entries, rest) =>
            (.table (Draft.finishEntries entries), rest)
    | 't' :: 'r' :: 'u' :: 'e' :: rest => some (.boolean true, rest)
    | 'f' :: 'a' :: 'l' :: 's' :: 'e' :: rest => some (.boolean false, rest)
    | 'i' :: 'n' :: 'f' :: rest => some (.float "inf", rest)
    | 'n' :: 'a' :: 'n' :: rest => some (.float "nan", rest)
    | c :: rest =>
      if c = '"' ∨ c = '\'' then
        (anyString (c :: rest)).map fun (text, rest) => (.string text, rest)
      else if c.isDigit ∨ c = '+' ∨ c = '-' then numeric (c :: rest)
      else none

/-- The end of a line, behind spaces and a comment. -/
def lineEnd (cs : List Char) : Option (List Char) :=
  let rest := match skipSpaces cs with
    | '#' :: rest => rest.dropWhile isPlainChar
    | rest => rest
  match rest with
  | [] => some []
  | '\n' :: rest => some rest
  | '\r' :: '\n' :: rest => some rest
  | _ => none

/-- Where the lines of a document add to: the table of the last header. -/
structure Document where
  entries : Draft.Entries
  current : List String

/-- A header, of one table or of a further table in a list. -/
def header (document : Document) : Reader Document
  | '[' :: '[' :: rest => do
    let (parts, rest) ← key rest
    let (path, last) ← splitKey parts
    match rest with
    | ']' :: ']' :: rest =>
      return (⟨← Draft.openItem path last document.entries, parts⟩, ← lineEnd rest)
    | _ => none
  | '[' :: rest => do
    let (parts, rest) ← key rest
    let (path, last) ← splitKey parts
    match rest with
    | ']' :: rest =>
      return (⟨← Draft.openTable path last document.entries, parts⟩, ← lineEnd rest)
    | _ => none
  | _ => none

/-- A pair, added to the table of the last header. -/
def assignment (document : Document) : Reader Document := fun cs => do
  let ((parts, value), rest) ← pair (value depthLimit) cs
  let (path, last) ← splitKey parts
  let entries ← Draft.change .parent (Draft.assign path last value) document.current .header
    document.entries
  return ({ document with entries }, ← lineEnd rest)

def lines : Nat → Document → List Char → Option Document
  | 0, _, _ => none
  | fuel + 1, document, cs =>
    match skipSpaces cs with
    | [] => some document
    | '\n' :: rest => lines fuel document rest
    | '\r' :: '\n' :: rest => lines fuel document rest
    | '#' :: rest => do lines fuel document (← lineEnd ('#' :: rest))
    | '[' :: rest => do
      let (document, rest) ← header document ('[' :: rest)
      lines fuel document rest
    | rest => do
      let (document, rest) ← assignment document rest
      lines fuel document rest

/-- The entries of a document. A mark of the byte order at its front counts for
nothing. -/
def readChars (cs : List Char) : Option Entries :=
  let cs := match cs with
    | c :: rest => if c.toNat = 0xFEFF then rest else c :: rest
    | [] => []
  (lines (cs.length + 1) ⟨[], []⟩ cs).map fun document => Draft.finishEntries document.entries

def read (s : String) : Option Entries := readChars s.toList

end PlatformClient.Toml
