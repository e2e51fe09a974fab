import PlatformClient.Text.Blank
import PlatformClient.Url.Percent

namespace PlatformClient

/-- The machine that an address names. The groups of an address of version 6
are eight numbers of 16 bits. -/
inductive Url.Host where
  | empty
  | domain (name : String)
  | ipv4 (address : Nat)
  | ipv6 (groups : List Nat)
  deriving DecidableEq, Repr

/-- Why a text is no address. -/
inductive Url.ReadError where
  | emptyHost
  | invalidDomain
  | invalidPort
  | invalidIpv4
  | invalidIpv6
  | invalidHostCharacter
  | relativeWithoutBase
  deriving DecidableEq, Repr

def Url.ReadError.message : Url.ReadError → String
  | .emptyHost => "empty host"
  | .invalidDomain => "invalid international domain name"
  | .invalidPort => "invalid port number"
  | .invalidIpv4 => "invalid IPv4 address"
  | .invalidIpv6 => "invalid IPv6 address"
  | .invalidHostCharacter => "invalid domain character"
  | .relativeWithoutBase => "relative URL without a base"

namespace Url.Host

/-- The value of a digit in bases up to sixteen. -/
def digitValue (base : Nat) (c : Char) : Option Nat :=
  let n := c.toNat
  let value :=
    if 48 ≤ n ∧ n ≤ 57 then n - 48
    else if 65 ≤ n ∧ n ≤ 70 then n - 55
    else if 97 ≤ n ∧ n ≤ 102 then n - 87
    else 16
  if value < base then some value else none

def numeral (base : Nat) (cs : List Char) : Option Nat :=
  (cs.mapM (digitValue base)).map (·.foldl (fun value d => value * base + d) 0)

/-- A part of an address of version 4: decimal, octal behind a zero, or
hexadecimal behind `0x`. -/
def ipv4Part : List Char → Option Nat
  | [] => none
  | '0' :: 'x' :: digits => numeral 16 digits
  | '0' :: 'X' :: digits => numeral 16 digits
  | ['0'] => some 0
  | '0' :: digits => numeral 8 digits
  | digits => numeral 10 digits

/-- The parts between the points, without an empty last one. -/
def domainParts (cs : List Char) : List (List Char) :=
  let parts := Text.splitAll '.' cs
  if parts.getLast? = some [] then parts.dropLast else parts

/-- A domain whose last part is a number is read as an address of
version 4. -/
def endsInNumber (cs : List Char) : Bool :=
  match (domainParts cs).getLast? with
  | none => false
  | some last => (!last.isEmpty && last.all Char.isDigit) || (ipv4Part last).isSome

/-- The last number fills all the places that the ones before it leave. -/
def ipv4Value : List Nat → Nat → Option Nat
  | [], _ => none
  | [last], places => if last < Nat.pow 256 places then some last else none
  | first :: rest, places =>
    if first < 256 then
      (ipv4Value rest (places - 1)).map (first * Nat.pow 256 (places - 1) + ·)
    else none

def readIpv4 (cs : List Char) : Except ReadError Host :=
  let parts := domainParts cs
  match parts.mapM ipv4Part with
  | some numbers =>
    if 4 < parts.length then .error .invalidIpv4
    else match ipv4Value numbers 4 with
      | some address => .ok (.ipv4 address)
      | none => .error .invalidIpv4
  | none => .error .invalidIpv4

/-- Four numbers below 256 without leading zeros, as two groups. -/
def ipv4Groups (cs : List Char) : Option (List Nat) := do
  let numbers ← (Text.splitAll '.' cs).mapM fun part =>
    match part with
    | [] => none
    | ['0'] => some 0
    | '0' :: _ => none
    | digits => (numeral 10 digits).filter (· < 256)
  match numbers with
  | [a, b, c, d] => some [a * 256 + b, c * 256 + d]
  | _ => none

/-- Groups separated by colons. Only the last one may be a pair of groups
written as an address of version 4. -/
def ipv6Groups : List (List Char) → Option (List Nat)
  | [] => some []
  | [last] =>
    if last.contains '.' then ipv4Groups last
    else if last.isEmpty ∨ 4 < last.length then none
    else (numeral 16 last).map ([·])
  | group :: rest =>
    if group.isEmpty ∨ 4 < group.length then none
    else do
      let value ← numeral 16 group
      return value :: (← ipv6Groups rest)

/-- The text before the first pair of colons and the text behind it. -/
def splitCompressed : List Char → Option (List Char × List Char)
  | ':' :: ':' :: rest => some ([], rest)
  | c :: rest => (splitCompressed rest).map fun (before, after) => (c :: before, after)
  | [] => none

def colonParts (cs : List Char) : List (List Char) :=
  if cs.isEmpty then [] else Text.splitAll ':' cs

/-- Eight groups, or fewer around one pair of colons that stands for as many
zeros as are missing. -/
def readIpv6 (cs : List Char) : Except ReadError Host :=
  let groups? : Option (List Nat) :=
    match splitCompressed cs with
    | none => (ipv6Groups (colonParts cs)).filter (·.length = 8)
    | some (before, after) => do
      if before.contains '.' then none
      let left ← ipv6Groups (colonParts before)
      let right ← ipv6Groups (colonParts after)
      if left.length + right.length ≤ 7 then
        some (left ++ List.replicate (8 - left.length - right.length) 0 ++ right)
      else none
  match groups? with
  | some groups => .ok (.ipv6 groups)
  | none => .error .invalidIpv6

/-- The characters that no domain of a special scheme may hold. -/
def isForbidden (c : Char) : Bool :=
  c.toNat ≤ 0x20 || 0x7F ≤ c.toNat ||
    ['#', '/', ':', '<', '>', '?', '@', '[', '\\', ']', '^', '|', '%'].contains c

def isForbiddenOpaque (c : Char) : Bool :=
  ['\x00', '\t', '\n', '\r', ' ', '#', '/', ':', '<', '>', '?', '@', '[', '\\', ']', '^', '|'].contains c

/-- An address of version 6 stands in brackets. -/
def readBracketed (rest : List Char) : Except ReadError Host :=
  if rest.getLast? = some ']' then readIpv6 rest.dropLast else .error .invalidIpv6

/-- The host of a special scheme: escapes are resolved and letters are put in
lower case. Only names in ASCII are read: one beyond it is refused and not
converted, and a label that is such a name in its converted form (`xn--`) is
taken as it is written, without a look at what it stands for. -/
def readDomain (cs : List Char) : Except ReadError Host :=
  match Text.decodeChars? (Percent.decode (Text.encodeChars cs)) with
  | none => .error .invalidDomain
  | some decoded =>
    let name := decoded.map Char.toLower
    if name.any isForbidden then .error .invalidDomain
    else if name.isEmpty then .error .emptyHost
    else if endsInNumber name then readIpv4 name
    else .ok (.domain (String.ofList name))

def readSpecial : List Char → Except ReadError Host
  | [] => .error .emptyHost
  | '[' :: rest => readBracketed rest
  | cs => readDomain cs

/-- The host of a scheme that gives hosts no meaning of its own. -/
def readOpaque : List Char → Except ReadError Host
  | [] => .ok .empty
  | '[' :: rest => readBracketed rest
  | cs =>
    if cs.any isForbiddenOpaque then .error .invalidHostCharacter
    else .ok (.domain (String.ofList (Percent.encode Percent.controls cs)))

/-- The start and the length of the first longest run of zeros among the
groups from `position` on. -/
def longestZeros : Nat → List Nat → Nat × Nat
  | _, [] => (0, 0)
  | position, group :: rest =>
    let run := ((group :: rest).takeWhile (· == 0)).length
    let (start, length) := longestZeros (position + 1) rest
    if run ≠ 0 ∧ length ≤ run then (position, run) else (start, length)

def printGroups (groups : List Nat) : List Char :=
  List.intercalate [':'] (groups.map (Nat.toDigits 16))

/-- At least two zeros are left out, at one place. -/
def printIpv6 (groups : List Nat) : List Char :=
  let (start, length) := longestZeros 0 groups
  if 2 ≤ length then
    printGroups (groups.take start) ++ ':' :: ':' :: printGroups (groups.drop (start + length))
  else printGroups groups

def printIpv4 (address : Nat) : List Char :=
  List.intercalate ['.'] <|
    [address / 0x1000000, address / 0x10000 % 256, address / 256 % 256, address % 256].map
      (Nat.toDigits 10)

def print : Host → List Char
  | .empty => []
  | .domain name => name.toList
  | .ipv4 address => printIpv4 address
  | .ipv6 groups => '[' :: printIpv6 groups ++ [']']

end Url.Host

end PlatformClient
