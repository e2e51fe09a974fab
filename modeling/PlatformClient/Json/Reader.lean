import PlatformClient.Json.Error

namespace PlatformClient.Json

/-- A reader takes a value from the front of a text and leaves the rest. -/
abbrev Reader (α : Type) := Bytes → Except Failure (α × Bytes)

/-- A failure at the place reached. -/
def failHere {α : Type} (cause : Cause) (rest : Bytes) : Except Failure α :=
  .error ⟨cause, rest.length⟩

/-- A failure behind the next byte, or at the end of the text. -/
def failNext {α : Type} (cause : Cause) (rest : Bytes) : Except Failure α :=
  .error ⟨cause, rest.length - 1⟩

def isBlankByte (byte : UInt8) : Bool :=
  byte == 0x20 || byte == 0x0A || byte == 0x09 || byte == 0x0D

def skipBlanks (bytes : Bytes) : Bytes := bytes.dropWhile isBlankByte

def isDigitByte (byte : UInt8) : Bool := 0x30 ≤ byte && byte ≤ 0x39

def digitsOf (bytes : Bytes) : List Nat :=
  (bytes.takeWhile isDigitByte).map fun byte => byte.toNat - 0x30

def skipDigits (bytes : Bytes) : Bytes := bytes.dropWhile isDigitByte

/-- Reads the letters left of a word whose first letter has been seen. -/
def letters {α : Type} (value : α) : List Char → Reader α
  | [], rest => .ok (value, rest)
  | _ :: _, [] => .error ⟨.endInValue, 0⟩
  | c :: cs, byte :: rest =>
    if byte.toNat = c.toNat then letters value cs rest else failHere .expectedIdent rest

/-- The first natural number beyond 64 bits. -/
def wordLimit : Nat := 0x10000000000000000

/-- The magnitude of the least integer of 64 bits with a sign. -/
def leastMagnitude : Nat := 0x8000000000000000

/-- Collects digits as long as the number fits into 64 bits; also gives how many
digits were left out. -/
def collect : Nat → List Nat → Nat × Nat
  | value, [] => (value, 0)
  | value, d :: ds =>
    if value * 10 + d < wordLimit then collect (value * 10 + d) ds else (value, ds.length + 1)

/-- A double read from digits and the place of the point. -/
def double (negative : Bool) (digits : Nat) (places : Int) : Reader Number := fun rest =>
  match Binary64.ofDecimal digits places with
  | none => failHere .numberOutOfRange rest
  | some value => .ok (.double (if negative then value.neg else value), rest)

def exponentLimit : Nat := 0x7FFFFFFF

/-- The digits of an exponent, the first of which has been taken. Of an
exponent beyond the limit only the sign matters. -/
def exponentDigits (negative : Bool) (digits : Nat) (places : Int) (minus : Bool) :
    Nat → Reader Number
  | exponent, [] => double negative digits (if minus then places - exponent else places + exponent) []
  | exponent, byte :: rest =>
    if isDigitByte byte then
      let next := exponent * 10 + (byte.toNat - 0x30)
      if next ≤ exponentLimit then exponentDigits negative digits places minus next rest
      else if digits ≠ 0 ∧ minus = false then failHere .numberOutOfRange rest
      else .ok (.double ⟨negative, 0, Binary64.leastExponent⟩, skipDigits rest)
    else
      double negative digits (if minus then places - exponent else places + exponent) (byte :: rest)

/-- The exponent behind its letter. -/
def exponentPart (negative : Bool) (digits : Nat) (places : Int) : Reader Number := fun rest =>
  let (minus, rest) := match rest with
    | 0x2B :: rest => (false, rest)
    | 0x2D :: rest => (true, rest)
    | rest => (false, rest)
  match rest with
  | [] => .error ⟨.endInValue, 0⟩
  | byte :: rest =>
    if isDigitByte byte then
      exponentDigits negative digits places minus (byte.toNat - 0x30) rest
    else failHere .invalidNumber rest

/-- What follows the digits of a number with a point or an exponent. -/
def afterDigits (negative : Bool) (digits : Nat) (places : Int) : Reader Number
  | 0x65 :: rest => exponentPart negative digits places rest
  | 0x45 :: rest => exponentPart negative digits places rest
  | rest => double negative digits places rest

/-- The digits behind the point. -/
def fraction (negative : Bool) (digits : Nat) (places : Int) : Reader Number := fun rest =>
  match digitsOf rest with
  | [] => failNext (if rest.isEmpty then .endInValue else .invalidNumber) rest
  | ds =>
    let (all, omitted) := collect digits ds
    afterDigits negative all (places - (ds.length - omitted : Nat)) (skipDigits rest)

/-- A number whose digits before the point have been collected, with those
left out counted as places. -/
def afterWhole (negative : Bool) (digits omitted : Nat) : Reader Number
  | 0x2E :: rest => fraction negative digits omitted rest
  | 0x65 :: rest => exponentPart negative digits omitted rest
  | 0x45 :: rest => exponentPart negative digits omitted rest
  | rest =>
    if omitted ≠ 0 then double negative digits omitted rest
    else if negative = false then .ok (.whole digits, rest)
    else if digits = 0 ∨ leastMagnitude < digits then double true digits 0 rest
    else .ok (.whole (-digits), rest)

/-- A number behind its sign. A leading zero stands alone. -/
def unsigned (negative : Bool) : Reader Number
  | [] => .error ⟨.endInValue, 0⟩
  | byte :: rest =>
    if byte = 0x30 then
      if (digitsOf rest).isEmpty then afterWhole negative 0 0 rest else failNext .invalidNumber rest
    else if isDigitByte byte then
      let (digits, omitted) := collect (byte.toNat - 0x30) (digitsOf rest)
      afterWhole negative digits omitted (skipDigits rest)
    else failHere .invalidNumber rest

/-- A number, of which the sign and the first digit lie ahead. -/
def signed : Reader Number
  | 0x2D :: rest => unsigned true rest
  | rest => unsigned false rest

/-- The value of a hexadecimal digit. -/
def hexValue (byte : UInt8) : Option Nat :=
  let n := byte.toNat
  if 0x30 ≤ n ∧ n ≤ 0x39 then some (n - 0x30)
  else if 0x41 ≤ n ∧ n ≤ 0x46 then some (n - 0x37)
  else if 0x61 ≤ n ∧ n ≤ 0x66 then some (n - 0x57)
  else none

def hexQuad (a b c d : UInt8) : Option Nat := do
  return (← hexValue a) * 4096 + (← hexValue b) * 256 + (← hexValue c) * 16 + (← hexValue d)

/-- The byte that an escape of one letter stands for. -/
def shortEscape (letter : UInt8) : Option UInt8 :=
  if letter = 0x22 then some 0x22
  else if letter = 0x5C then some 0x5C
  else if letter = 0x2F then some 0x2F
  else if letter = 0x62 then some 0x08
  else if letter = 0x66 then some 0x0C
  else if letter = 0x6E then some 0x0A
  else if letter = 0x72 then some 0x0D
  else if letter = 0x74 then some 0x09
  else none

/-- The first half of a pair of units that stand for one character. -/
def isLeading (unit : Nat) : Bool := 0xD800 ≤ unit && unit < 0xDC00

def isTrailing (unit : Nat) : Bool := 0xDC00 ≤ unit && unit < 0xE000

def pairValue (leading trailing : Nat) : Nat :=
  0x10000 + (leading - 0xD800) * 0x400 + (trailing - 0xDC00)

def encodeUnit (value : Nat) : Bytes := String.utf8EncodeChar (Char.ofNat value)

/-- The bytes of a string behind its opening quote, up to and without the
closing one. -/
def stringBytes : Reader Bytes
  | [] => .error ⟨.endInString, 0⟩
  | byte :: rest =>
    if byte = 0x22 then .ok ([], rest)
    else if byte = 0x5C then
      match rest with
      | [] => .error ⟨.endInString, 0⟩
      | 0x75 :: a :: b :: c :: d :: rest =>
        match hexQuad a b c d with
        | none => failHere .invalidEscape rest
        | some unit =>
          if isTrailing unit then failHere .loneSurrogate rest
          else if isLeading unit then
            match rest with
            | [] => .error ⟨.endInString, 0⟩
            | 0x5C :: 0x75 :: e :: f :: g :: h :: rest =>
              match hexQuad e f g h with
              | none => failHere .invalidEscape rest
              | some second =>
                if isTrailing second then
                  (stringBytes rest).map fun (bytes, rest) =>
                    (encodeUnit (pairValue unit second) ++ bytes, rest)
                else failHere .loneSurrogate rest
            | [0x5C] => .error ⟨.endInString, 0⟩
            | 0x5C :: 0x75 :: _ => .error ⟨.endInString, 0⟩
            | 0x5C :: _ :: rest => failHere .endOfHexEscape rest
            | _ :: rest => failHere .endOfHexEscape rest
          else (stringBytes rest).map fun (bytes, rest) => (encodeUnit unit ++ bytes, rest)
      | 0x75 :: _ => .error ⟨.endInString, 0⟩
      | letter :: rest =>
        match shortEscape letter with
        | none => failHere .invalidEscape rest
        | some byte => (stringBytes rest).map fun (bytes, rest) => (byte :: bytes, rest)
    else if byte < 0x20 then failHere .controlCharacter rest
    else (stringBytes rest).map fun (bytes, rest) => (byte :: bytes, rest)

/-- A string behind its opening quote. Broken text is reported at its first
broken byte, also behind escapes, which are never broken themselves. -/
def stringBody : Reader String := fun rest => do
  let (bytes, behind) ← stringBytes rest
  match Text.decode? bytes with
  | some text => .ok (text, behind)
  | none => failNext .invalidCodePoint (rest.drop (Text.validLength rest))

/-- The items of a list behind its opening bracket. -/
def items {α : Type} (item : Reader α) : Nat → Bool → Reader (List α)
  | 0, _, rest => failNext .endInList rest
  | fuel + 1, first, rest =>
    let more (rest : Bytes) : Except Failure (List α × Bytes) := do
      let (head, rest) ← item rest
      let (tail, rest) ← items item fuel false rest
      return (head :: tail, rest)
    match skipBlanks rest with
    | [] => .error ⟨.endInList, 0⟩
    | 0x5D :: rest => .ok ([], rest)
    | byte :: rest =>
      if first then more (byte :: rest)
      else if byte = 0x2C then
        match skipBlanks rest with
        | [] => .error ⟨.endInValue, 0⟩
        | 0x5D :: rest => failHere .trailingComma rest
        | rest => more rest
      else failHere .expectedListCommaOrEnd rest

/-- The colon between a name and its value. -/
def colon (rest : Bytes) : Except Failure Bytes :=
  match skipBlanks rest with
  | [] => .error ⟨.endInObject, 0⟩
  | 0x3A :: rest => .ok rest
  | rest => failNext .expectedColon rest

/-- The members of an object behind its opening brace. Each is taken into a
state by a reader that starts behind the name. -/
def members {σ : Type} (take : σ → String → Reader σ) : Nat → Bool → σ → Reader σ
  | 0, _, _, rest => failNext .endInObject rest
  | fuel + 1, first, state, rest =>
    let more (rest : Bytes) : Except Failure (σ × Bytes) := do
      let (name, rest) ← stringBody rest
      let (state, rest) ← take state name rest
      members take fuel false state rest
    match skipBlanks rest with
    | [] => .error ⟨.endInObject, 0⟩
    | 0x7D :: rest => .ok (state, rest)
    | byte :: rest =>
      if first then
        if byte = 0x22 then more rest else failHere .keyNotString rest
      else if byte = 0x2C then
        match skipBlanks rest with
        | [] => .error ⟨.endInValue, 0⟩
        | 0x22 :: rest => more rest
        | 0x7D :: rest => failHere .trailingComma rest
        | _ :: rest => failHere .keyNotString rest
      else failHere .expectedObjectCommaOrEnd rest

/-- How deep lists and objects may be nested. -/
def depthLimit : Nat := 127

/-- A value in which lists and objects are nested at most `depth` deep. -/
def value : Nat → Reader Json
  | depth, rest =>
    match skipBlanks rest with
    | [] => .error ⟨.endInValue, 0⟩
    | 0x6E :: rest => letters .null ['u', 'l', 'l'] rest
    | 0x74 :: rest => letters (.bool true) ['r', 'u', 'e'] rest
    | 0x66 :: rest => letters (.bool false) ['a', 'l', 's', 'e'] rest
    | 0x22 :: rest => (stringBody rest).map fun (text, rest) => (.string text, rest)
    | 0x5B :: rest =>
      match depth with
      | 0 => failHere .recursionLimit rest
      | depth + 1 =>
        (items (value depth) (rest.length + 1) true rest).map fun (items, rest) =>
          (.array items, rest)
    | 0x7B :: rest =>
      match depth with
      | 0 => failHere .recursionLimit rest
      | depth + 1 =>
        let take (fields : Fields) (name : String) (rest : Bytes) : Except Failure (Fields × Bytes) := do
          let (value, rest) ← value depth (← colon rest)
          return (fields.insert name value, rest)
        (members take (rest.length + 1) true [] rest).map fun (fields, rest) =>
          (.object fields, rest)
    | byte :: rest =>
      if byte = 0x2D ∨ isDigitByte byte then
        (signed (byte :: rest)).map fun (value, rest) => (.number value, rest)
      else failHere .expectedValue rest

/-- Reads a whole text, of which only blanks may be left. -/
def readWith {α : Type} (reader : Reader α) (input : Bytes) : Except Error α :=
  match reader input with
  | .error failure => .error (failure.locate input)
  | .ok (value, rest) =>
    match skipBlanks rest with
    | [] => .ok value
    | _ :: rest => .error (Failure.locate input ⟨.trailingCharacters, rest.length⟩)

def read (input : Bytes) : Except Error Json := readWith (value depthLimit) input

end PlatformClient.Json
