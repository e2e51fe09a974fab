import PlatformClient.Text.Utf8

namespace PlatformClient.Url.Percent

/-- A set of ASCII characters that are escaped in one part of an address. All
other characters beyond ASCII are escaped everywhere. -/
abbrev EscapeSet := Char → Bool

def controls : EscapeSet := fun c => c.toNat < 0x20 || c.toNat == 0x7F

def fragmentSet : EscapeSet := fun c =>
  controls c || c == ' ' || c == '"' || c == '<' || c == '>' || c.toNat == 0x60

def querySet : EscapeSet := fun c =>
  controls c || c == ' ' || c == '"' || c == '#' || c == '<' || c == '>'

/-- The set for the queries of special schemes. -/
def specialQuerySet : EscapeSet := fun c => querySet c || c.toNat == 0x27

def pathSet : EscapeSet := fun c =>
  fragmentSet c || c == '#' || c == '?' || c == '\x7b' || c == '\x7d'

def userInfoSet : EscapeSet := fun c =>
  pathSet c || c == '/' || c == ':' || c == ';' || c == '=' || c == '@' || c == '[' ||
    c == '\\' || c == ']' || c == '^' || c == '|'

/-- A hexadecimal digit, in upper case. -/
def hexDigit (n : Nat) : Char := (Nat.digitChar n).toUpper

def escapeByte (byte : UInt8) : List Char :=
  ['%', hexDigit (byte.toNat / 16), hexDigit (byte.toNat % 16)]

def encodeChar (set : EscapeSet) (c : Char) : List Char :=
  if set c ∨ 0x80 ≤ c.toNat then (String.utf8EncodeChar c).flatMap escapeByte else [c]

def encode (set : EscapeSet) (cs : List Char) : List Char := cs.flatMap (encodeChar set)

def hexValue (byte : UInt8) : Option Nat :=
  let n := byte.toNat
  if 0x30 ≤ n ∧ n ≤ 0x39 then some (n - 0x30)
  else if 0x41 ≤ n ∧ n ≤ 0x46 then some (n - 0x37)
  else if 0x61 ≤ n ∧ n ≤ 0x66 then some (n - 0x57)
  else none

/-- Puts a byte in the place of each escape. A percent sign that begins none
stays. -/
def decode : Bytes → Bytes
  | 0x25 :: high :: low :: rest =>
    match hexValue high, hexValue low with
    | some h, some l => UInt8.ofNat (h * 16 + l) :: decode rest
    | _, _ => 0x25 :: decode (high :: low :: rest)
  | byte :: rest => byte :: decode rest
  | [] => []

end PlatformClient.Url.Percent
