import PlatformClient.Json.Error

namespace PlatformClient.Json

/-- A character as it stands in a string: quotes, backslashes and controls are
escaped. -/
def printedChar (c : Char) : List Char :=
  if c = '"' then ['\\', '"']
  else if c = '\\' then ['\\', '\\']
  else if c.toNat = 0x08 then ['\\', 'b']
  else if c.toNat = 0x0C then ['\\', 'f']
  else if c = '\n' then ['\\', 'n']
  else if c = '\r' then ['\\', 'r']
  else if c = '\t' then ['\\', 't']
  else if c.toNat < 0x20 then
    ['\\', 'u', '0', '0', Nat.digitChar (c.toNat / 16), Nat.digitChar (c.toNat % 16)]
  else [c]

def printedString (s : String) : List Char :=
  '"' :: s.toList.flatMap printedChar ++ ['"']

mutual

/-- A document on one line, without blanks. -/
def compactChars : Json → List Char
  | .null => ['n', 'u', 'l', 'l']
  | .bool true => ['t', 'r', 'u', 'e']
  | .bool false => ['f', 'a', 'l', 's', 'e']
  | .number value => value.print
  | .string value => printedString value
  | .array items => '[' :: compactItems items
  | .object fields => '\x7b' :: compactFields fields

/-- The items of a list and its closing bracket. -/
def compactItems : List Json → List Char
  | [] => [']']
  | [item] => compactChars item ++ [']']
  | item :: rest => compactChars item ++ ',' :: compactItems rest

/-- The fields of an object and its closing brace. -/
def compactFields : List (String × Json) → List Char
  | [] => ['\x7d']
  | [(name, value)] => printedString name ++ ':' :: compactChars value ++ ['\x7d']
  | (name, value) :: rest =>
    printedString name ++ ':' :: compactChars value ++ ',' :: compactFields rest

end

/-- A new line, indented by two blanks a level. -/
def newLine (level : Nat) : List Char := '\n' :: List.replicate (2 * level) ' '

mutual

/-- A document over several lines, with every item and every field on a line
of its own. -/
def prettyChars (level : Nat) : Json → List Char
  | .array [] => ['[', ']']
  | .array items => '[' :: prettyItems level items
  | .object [] => ['\x7b', '\x7d']
  | .object fields => '\x7b' :: prettyFields level fields
  | .null => ['n', 'u', 'l', 'l']
  | .bool true => ['t', 'r', 'u', 'e']
  | .bool false => ['f', 'a', 'l', 's', 'e']
  | .number value => value.print
  | .string value => printedString value

def prettyItems (level : Nat) : List Json → List Char
  | [] => newLine level ++ [']']
  | [item] => newLine (level + 1) ++ prettyChars (level + 1) item ++ newLine level ++ [']']
  | item :: rest =>
    newLine (level + 1) ++ prettyChars (level + 1) item ++ ',' :: prettyItems level rest

def prettyFields (level : Nat) : List (String × Json) → List Char
  | [] => newLine level ++ ['\x7d']
  | [(name, value)] =>
    newLine (level + 1) ++ printedString name ++ ':' :: ' ' :: prettyChars (level + 1) value ++
      newLine level ++ ['\x7d']
  | (name, value) :: rest =>
    newLine (level + 1) ++ printedString name ++ ':' :: ' ' :: prettyChars (level + 1) value ++
      ',' :: prettyFields level rest

end

def compact (value : Json) : String := String.ofList value.compactChars

def pretty (value : Json) : String := String.ofList (value.prettyChars 0)

end PlatformClient.Json
