import PlatformClient.Json.Expect

namespace PlatformClient.Login

open Json

/-- What is said to be expected where the answer is neither an object nor a
list. -/
def grantKind : String := "struct TokenResponse"

def tokenName : String := "access_token"

/-- Takes the member behind a name: the token, which may occur once, or a value that
is passed over. Such a value is only checked for its form and may be as deep as it
likes. -/
def takeMember (token : Option String) (name : String) : Reader (Option String) := fun rest => do
  if name = tokenName then
    if token.isSome then failInObject (.duplicateField name) rest
    let (text, rest) ← expectString (← colon rest)
    return (some text, rest)
  else
    let rest ← colon rest
    let (_, rest) ← skipValue (2 * rest.length + 2) [] rest
    return (token, rest)

/-- The end of a list of which one item has been read. -/
def closeList (rest : Bytes) : Except Failure Bytes :=
  match skipBlanks rest with
  | [] => .error ⟨.endInList, 0⟩
  | 0x5D :: rest => .ok rest
  | 0x2C :: rest =>
    match skipBlanks rest with
    | 0x5D :: rest => failHere .trailingComma rest
    | rest => failNext .trailingCharacters rest
  | _ :: rest => failHere .trailingCharacters rest

/-- The token, from an object that has it under its name or from a list that has
nothing else. No other member decides anything, in whatever order they come. -/
def grantReader : Reader String := fun rest =>
  match skipBlanks rest with
  | 0x7B :: rest => do
    let (token, rest) ← members takeMember (rest.length + 1) true none rest
    match token with
    | some token => return (token, rest)
    | none => failHere (.missingField tokenName) rest
  | 0x5B :: rest => do
    match skipBlanks rest with
    | [] => throw ⟨.endInList, 0⟩
    | 0x5D :: rest =>
      failHere (.invalidLength 0 (grantKind ++ " with 1 element")) rest
    | rest =>
      let (token, rest) ← expectString rest
      return (token, ← closeList rest)
  | rest => unexpected grantKind rest

def readGrant (body : Bytes) : Except Json.Error String := readWith grantReader body

end PlatformClient.Login
