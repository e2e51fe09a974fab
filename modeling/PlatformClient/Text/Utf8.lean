namespace PlatformClient

abbrev Bytes := List UInt8

namespace Text

/-- Where a decoder stands between two bytes: at the boundary of a character,
or inside one, where the next byte has to lie between `low` and `high`, `later`
more bytes follow it, and `value` holds the bits read so far. -/
inductive Utf8State where
  | boundary
  | inside (low high later value : Nat)
  deriving DecidableEq, Repr

/-- The bits of a continuation byte added below those already read. -/
def Utf8State.append (value byte : Nat) : Nat := value * 64 + byte % 64

/-- What a byte at the boundary of a character leads to. The bounds on the
second byte exclude overlong forms, surrogates and values beyond the last
character. -/
def Utf8State.lead (byte : Nat) : Option Utf8State :=
  if byte < 0xC2 then none
  else if byte < 0xE0 then some (.inside 0x80 0xBF 0 (byte % 32))
  else if byte = 0xE0 then some (.inside 0xA0 0xBF 1 0)
  else if byte = 0xED then some (.inside 0x80 0x9F 1 13)
  else if byte < 0xF0 then some (.inside 0x80 0xBF 1 (byte % 16))
  else if byte = 0xF0 then some (.inside 0x90 0xBF 2 0)
  else if byte < 0xF4 then some (.inside 0x80 0xBF 2 (byte % 8))
  else if byte = 0xF4 then some (.inside 0x80 0x8F 2 4)
  else none

/-- One decoded character, or `none` for a longest run of bytes that begins
no character. -/
abbrev Utf8Piece := Option Char

def Utf8State.atBoundary (byte : Nat) : List Utf8Piece × Utf8State :=
  if byte < 0x80 then ([some (Char.ofNat byte)], .boundary)
  else match lead byte with
    | some state => ([], state)
    | none => ([none], .boundary)

/-- The pieces completed by one byte, and where the decoder stands after it.
A byte that does not continue the character under way ends a broken piece and
is read again at the boundary. -/
def Utf8State.step : Utf8State → UInt8 → List Utf8Piece × Utf8State
  | .boundary, byte => atBoundary byte.toNat
  | .inside low high later value, byte =>
    if low ≤ byte.toNat ∧ byte.toNat ≤ high then
      match later with
      | 0 => ([some (Char.ofNat (append value byte.toNat))], .boundary)
      | n + 1 => ([], .inside 0x80 0xBF n (append value byte.toNat))
    else
      let (pieces, state) := atBoundary byte.toNat
      (none :: pieces, state)

def Utf8State.pieces : Utf8State → Bytes → List Utf8Piece
  | .boundary, [] => []
  | .inside .., [] => [none]
  | state, byte :: rest =>
    let (done, next) := state.step byte
    done ++ next.pieces rest

/-- The characters of a byte sequence that encodes some text. -/
def decodeChars? (bytes : Bytes) : Option (List Char) :=
  (Utf8State.boundary.pieces bytes).mapM id

def decode? (bytes : Bytes) : Option String :=
  (decodeChars? bytes).map String.ofList

/-- What stands for a broken piece in text decoded with losses. -/
def replacement : Char := Char.ofNat 0xFFFD

def decodeLossyChars (bytes : Bytes) : List Char :=
  (Utf8State.boundary.pieces bytes).map (·.getD replacement)

def decodeLossy (bytes : Bytes) : String :=
  String.ofList (decodeLossyChars bytes)

def encodeChars (cs : List Char) : Bytes := cs.flatMap String.utf8EncodeChar

def encode (s : String) : Bytes := encodeChars s.toList

/-- How many bytes come before the first broken piece. -/
def validLength (bytes : Bytes) : Nat :=
  (encodeChars (((Utf8State.boundary.pieces bytes).takeWhile Option.isSome).filterMap id)).length

end Text

end PlatformClient
