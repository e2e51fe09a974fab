import PlatformClient.Text.Utf8

namespace PlatformClient.Toml

/-- What decides how a string is written: the longest runs of either quote,
and whether it holds backslashes, line ends, or other controls. -/
structure Traits where
  singleRun : Nat
  doubleRun : Nat
  backslash : Bool
  newline : Bool
  control : Bool
  deriving DecidableEq, Repr

/-- The length of the longest run of a character, where `run` of them have
just been seen. -/
def longestRun (mark : Char) : Nat → List Char → Nat
  | run, [] => run
  | run, c :: rest =>
    if c = mark then longestRun mark (run + 1) rest else max run (longestRun mark 0 rest)

/-- A control other than a tab and a line end. -/
def isControl (c : Char) : Bool :=
  (c.toNat < 0x20 && c != '\t' && c != '\n') || c.toNat == 0x7F

def Traits.of (cs : List Char) : Traits where
  singleRun := longestRun '\'' 0 cs
  doubleRun := longestRun '"' 0 cs
  backslash := cs.contains '\\'
  newline := cs.contains '\n'
  control := cs.any isControl

def hexDigit (n : Nat) : Char := (Nat.digitChar n).toUpper

/-- A control as a number of four digits. -/
def numericEscape (c : Char) : List Char :=
  ['\\', 'u', hexDigit (c.toNat / 4096), hexDigit (c.toNat / 256 % 16), hexDigit (c.toNat / 16 % 16),
    hexDigit (c.toNat % 16)]

/-- The escape of a character, where it has one whatever stands around it. -/
def escape? (c : Char) : Option (List Char) :=
  if c.toNat = 0x08 then some ['\\', 'b']
  else if c = '\t' then some ['\\', 't']
  else if c.toNat = 0x0C then some ['\\', 'f']
  else if c = '\r' then some ['\\', 'r']
  else if c = '\\' then some ['\\', '\\']
  else if c ≠ '\n' ∧ isControl c then some (numericEscape c)
  else none

/-- A string with escapes. At most `quotes` double quotes in a row stand as
they are; `run` of them have just been written. A line end stands as it is in a
string of several lines. -/
def escaped (quotes : Nat) (lines : Bool) : Nat → List Char → List Char
  | _, [] => []
  | run, c :: rest =>
    if c = '"' then
      if run < quotes then '"' :: escaped quotes lines (run + 1) rest
      else '\\' :: '"' :: escaped quotes lines 0 rest
    else if c = '\n' ∧ lines = false then '\\' :: 'n' :: escaped quotes lines 0 rest
    else match escape? c with
      | some text => text ++ escaped quotes lines 0 rest
      | none => c :: escaped quotes lines 0 rest

/-- The ways of writing a string. -/
inductive Style where
  | basic
  | literal
  | multilineBasic
  | multilineLiteral
  deriving DecidableEq, Repr

def Style.write (style : Style) (cs : List Char) : List Char :=
  let firstLineEnd := if cs.contains '\n' then ['\n'] else []
  match style with
  | .basic => '"' :: escaped 0 false 0 cs ++ ['"']
  | .literal => '\'' :: cs ++ ['\'']
  | .multilineBasic => ['"', '"', '"'] ++ firstLineEnd ++ escaped 2 true 0 cs ++ ['"', '"', '"']
  | .multilineLiteral => ['\'', '\'', '\''] ++ firstLineEnd ++ cs ++ ['\'', '\'', '\'']

/-- The first style in which a string needs no escapes, from the plainest one
on; else one with escapes. -/
def Style.ofString (traits : Traits) : Style :=
  if ¬ traits.control ∧ ¬ traits.backslash ∧ traits.doubleRun = 0 ∧ ¬ traits.newline then .basic
  else if ¬ traits.control ∧ traits.singleRun = 0 ∧ ¬ traits.newline then .literal
  else if ¬ traits.control ∧ ¬ traits.backslash ∧ traits.doubleRun ≤ 2 then .multilineBasic
  else if ¬ traits.control ∧ traits.singleRun ≤ 2 then .multilineLiteral
  else if traits.newline then .multilineBasic
  else .basic

def printString (s : String) : List Char :=
  (Style.ofString (Traits.of s.toList)).write s.toList

/-- The characters of a key without quotes. -/
def isBare (c : Char) : Bool := c.isAlphanum || c == '-' || c == '_'

def Style.ofKey (traits : Traits) : Style :=
  let control := traits.control || traits.newline
  if ¬ control ∧ ¬ traits.backslash ∧ traits.doubleRun = 0 then .basic
  else if ¬ control ∧ traits.singleRun = 0 then .literal
  else .basic

/-- One part of a key, quoted unless it is bare. -/
def printKey (s : String) : List Char :=
  let cs := s.toList
  if ¬ cs.isEmpty ∧ cs.all isBare then cs else (Style.ofKey (Traits.of cs)).write cs

/-- The header of a table. -/
def printHeader (path : List String) : List Char :=
  '[' :: List.intercalate ['.'] (path.map printKey) ++ [']', '\n']

/-- A line that gives a string to a key. -/
def printEntry (key value : String) : List Char :=
  printKey key ++ [' ', '=', ' '] ++ printString value ++ ['\n']

end PlatformClient.Toml
