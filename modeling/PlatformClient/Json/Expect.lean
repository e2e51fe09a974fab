import PlatformClient.Json.Reader

namespace PlatformClient.Json

/-- Fails on a value of an unwanted kind, behind the value where it is a plain
one and before it where it is a list or an object. -/
def unexpected {α : Type} (expected : String) : Reader α := fun rest =>
  let wrong (found : Found) (rest : Bytes) : Except Failure (α × Bytes) :=
    failHere (.invalidType found expected) rest
  match skipBlanks rest with
  | [] => .error ⟨.endInValue, 0⟩
  | 0x6E :: rest => do let (found, rest) ← letters Found.null ['u', 'l', 'l'] rest; wrong found rest
  | 0x74 :: rest => do
    let (found, rest) ← letters (Found.bool true) ['r', 'u', 'e'] rest
    wrong found rest
  | 0x66 :: rest => do
    let (found, rest) ← letters (Found.bool false) ['a', 'l', 's', 'e'] rest
    wrong found rest
  | 0x22 :: rest => do let (text, rest) ← stringBody rest; wrong (.string text) rest
  | 0x5B :: rest => wrong .sequence (0x5B :: rest)
  | 0x7B :: rest => wrong .map (0x7B :: rest)
  | byte :: rest =>
    if byte = 0x2D ∨ isDigitByte byte then do
      let (value, rest) ← signed (byte :: rest)
      wrong (.number value) rest
    else failHere .expectedValue rest

def expectString : Reader String := fun rest =>
  match skipBlanks rest with
  | 0x22 :: rest => stringBody rest
  | rest => unexpected "a string" rest

/-- A whole number of 16 bits without sign. -/
def expectUInt16 : Reader Nat := fun rest =>
  match skipBlanks rest with
  | [] => .error ⟨.endInValue, 0⟩
  | byte :: rest =>
    if byte = 0x2D ∨ isDigitByte byte then do
      let (found, rest) ← signed (byte :: rest)
      match found with
      | .whole value =>
        if 0 ≤ value ∧ value < 0x10000 then .ok (value.toNat, rest)
        else failHere (.invalidValue (.number found) "u16") rest
      | .double _ => failHere (.invalidType (.number found) "u16") rest
    else unexpected "u16" (byte :: rest)

/-- Fails on an object as a whole, at the place where reading would go on:
behind blanks and behind a closing brace. -/
def failInObject {α : Type} (cause : Cause) (rest : Bytes) : Except Failure α :=
  match skipBlanks rest with
  | 0x7D :: rest => failHere cause rest
  | rest => failHere cause rest

/-- A string behind its opening quote of which only the end matters. -/
def skipString : Nat → Reader Unit
  | 0, _ => .error ⟨.endInString, 0⟩
  | _, [] => .error ⟨.endInString, 0⟩
  | fuel + 1, byte :: rest =>
    if byte = 0x22 then .ok ((), rest)
    else if byte = 0x5C then
      match rest with
      | [] => .error ⟨.endInString, 0⟩
      | 0x75 :: a :: b :: c :: d :: rest =>
        if (hexQuad a b c d).isSome then skipString fuel rest else failHere .invalidEscape rest
      | 0x75 :: _ => .error ⟨.endInString, 0⟩
      | letter :: rest =>
        if (shortEscape letter).isSome then skipString fuel rest else failHere .invalidEscape rest
    else if byte < 0x20 then failHere .controlCharacter (byte :: rest)
    else skipString fuel rest

/-- The exponent of a number of which only the end matters. -/
def skipExponent : Reader Unit := fun rest =>
  let rest := match rest with
    | 0x2B :: rest => rest
    | 0x2D :: rest => rest
    | rest => rest
  match rest with
  | [] => failHere .invalidNumber []
  | byte :: rest =>
    if isDigitByte byte then .ok ((), skipDigits rest) else failHere .invalidNumber rest

def skipAfterDigits : Reader Unit
  | 0x65 :: rest => skipExponent rest
  | 0x45 :: rest => skipExponent rest
  | rest => .ok ((), rest)

/-- A number behind its sign of which only the end matters. -/
def skipUnsigned : Reader Unit
  | [] => failHere .invalidNumber []
  | byte :: rest =>
    if byte = 0x30 ∧ ¬ (digitsOf rest).isEmpty then failNext .invalidNumber rest
    else if isDigitByte byte then
      match skipDigits rest with
      | 0x2E :: rest =>
        if (digitsOf rest).isEmpty then failNext .invalidNumber rest
        else skipAfterDigits (skipDigits rest)
      | rest => skipAfterDigits rest
    else failHere .invalidNumber rest

/-- An open list or object around the place reached. -/
inductive Frame where
  | list
  | object
  deriving DecidableEq, Repr

/-- The name and the colon before the value of a member. -/
def skipName (rest : Bytes) : Except Failure Bytes :=
  match skipBlanks rest with
  | [] => .error ⟨.endInObject, 0⟩
  | 0x22 :: rest => do
    let (_, rest) ← skipString (rest.length + 1) rest
    colon rest
  | _ :: rest => failHere .keyNotString rest

mutual

/-- Skips a value, and then the rest of the lists and objects around it. The
depth of a skipped value is not limited. -/
def skipValue : Nat → List Frame → Reader Unit
  | 0, _, rest => failHere .endInValue rest
  | fuel + 1, frames, rest =>
    let onward (result : Except Failure (Unit × Bytes)) : Except Failure (Unit × Bytes) := do
      let (_, rest) ← result
      skipAfter fuel true frames rest
    match skipBlanks rest with
    | [] => .error ⟨.endInValue, 0⟩
    | 0x6E :: rest => onward (letters () ['u', 'l', 'l'] rest)
    | 0x74 :: rest => onward (letters () ['r', 'u', 'e'] rest)
    | 0x66 :: rest => onward (letters () ['a', 'l', 's', 'e'] rest)
    | 0x22 :: rest => onward (skipString (rest.length + 1) rest)
    | 0x2D :: rest => onward (skipUnsigned rest)
    | 0x5B :: rest => skipAfter fuel false (.list :: frames) rest
    | 0x7B :: rest => skipAfter fuel false (.object :: frames) rest
    | byte :: rest =>
      if isDigitByte byte then onward (skipUnsigned (byte :: rest))
      else failHere .expectedValue rest

/-- Goes on behind a value, or behind an opening bracket when `behind` is
false. -/
def skipAfter : Nat → Bool → List Frame → Reader Unit
  | 0, _, _, rest => failHere .endInValue rest
  | _, _, [], rest => .ok ((), rest)
  | fuel + 1, behind, frame :: frames, rest =>
    let next (rest : Bytes) : Except Failure (Unit × Bytes) :=
      match frame with
      | .list => skipValue fuel (frame :: frames) rest
      | .object => do skipValue fuel (frame :: frames) (← skipName rest)
    match frame, skipBlanks rest with
    | .list, [] => .error ⟨.endInList, 0⟩
    | .object, [] => .error ⟨.endInObject, 0⟩
    | .list, 0x5D :: rest => skipAfter fuel true frames rest
    | .object, 0x7D :: rest => skipAfter fuel true frames rest
    | _, byte :: rest =>
      if behind = false then next (byte :: rest)
      else if byte = 0x2C then next rest
      else match frame with
        | .list => failHere .expectedListCommaOrEnd rest
        | .object => failHere .expectedObjectCommaOrEnd rest

end

end PlatformClient.Json
