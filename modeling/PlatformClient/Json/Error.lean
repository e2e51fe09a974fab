import PlatformClient.Json.Value
import PlatformClient.Number.Shortest
import PlatformClient.Text.Quoted
import PlatformClient.Text.Utf8

namespace PlatformClient.Json

/-- What was found where a value of another kind was expected. -/
inductive Found where
  | null
  | bool (value : Bool)
  | number (value : Number)
  | string (value : String)
  | sequence
  | map
  deriving DecidableEq, Repr

def Number.print : Number → List Char
  | .whole value => (toString value).toList
  | .double value => value.print

def Found.describe : Found → String
  | .null => "null"
  | .bool value => "boolean `" ++ toString value ++ "`"
  | .number (.whole value) => "integer `" ++ toString value ++ "`"
  | .number (.double value) => "floating point `" ++ String.ofList value.print ++ "`"
  | .string value => "string " ++ Text.quote value
  | .sequence => "sequence"
  | .map => "map"

/-- Why a text is not the document that was asked for. -/
inductive Cause where
  | endInList
  | endInObject
  | endInString
  | endInValue
  | expectedColon
  | expectedListCommaOrEnd
  | expectedObjectCommaOrEnd
  | expectedIdent
  | expectedValue
  | invalidEscape
  | invalidNumber
  | numberOutOfRange
  | invalidCodePoint
  | controlCharacter
  | keyNotString
  | loneSurrogate
  | endOfHexEscape
  | trailingComma
  | trailingCharacters
  | recursionLimit
  | invalidType (found : Found) (expected : String)
  | invalidValue (found : Found) (expected : String)
  | invalidLength (length : Nat) (expected : String)
  | duplicateField (name : String)
  | missingField (name : String)
  deriving DecidableEq, Repr

def Cause.message : Cause → String
  | .endInList => "EOF while parsing a list"
  | .endInObject => "EOF while parsing an object"
  | .endInString => "EOF while parsing a string"
  | .endInValue => "EOF while parsing a value"
  | .expectedColon => "expected `:`"
  | .expectedListCommaOrEnd => "expected `,` or `]`"
  | .expectedObjectCommaOrEnd => "expected `,` or `\x7d`"
  | .expectedIdent => "expected ident"
  | .expectedValue => "expected value"
  | .invalidEscape => "invalid escape"
  | .invalidNumber => "invalid number"
  | .numberOutOfRange => "number out of range"
  | .invalidCodePoint => "invalid unicode code point"
  | .controlCharacter =>
    "control character (\\u0000-\\u001F) found while parsing a string"
  | .keyNotString => "key must be a string"
  | .loneSurrogate => "lone leading surrogate in hex escape"
  | .endOfHexEscape => "unexpected end of hex escape"
  | .trailingComma => "trailing comma"
  | .trailingCharacters => "trailing characters"
  | .recursionLimit => "recursion limit exceeded"
  | .invalidType found expected =>
    "invalid type: " ++ found.describe ++ ", expected " ++ expected
  | .invalidValue found expected =>
    "invalid value: " ++ found.describe ++ ", expected " ++ expected
  | .invalidLength length expected =>
    "invalid length " ++ toString length ++ ", expected " ++ expected
  | .duplicateField name => "duplicate field `" ++ name ++ "`"
  | .missingField name => "missing field `" ++ name ++ "`"

/-- A cause, and how many bytes of the text lie behind the place it belongs
to. -/
structure Failure where
  cause : Cause
  left : Nat
  deriving DecidableEq, Repr

/-- A cause, and its place as a line, counted from one, and the number of
bytes before it on that line. -/
structure Error where
  cause : Cause
  line : Nat
  column : Nat
  deriving DecidableEq, Repr

def Error.message (error : Error) : String :=
  error.cause.message ++ " at line " ++ toString error.line ++ " column " ++ toString error.column

/-- The place behind a part of a text. -/
def Failure.locate (input : Bytes) (failure : Failure) : Error :=
  let before := input.take (input.length - failure.left)
  ⟨failure.cause, before.count 0x0A + 1, (before.reverse.takeWhile (· != 0x0A)).length⟩

end PlatformClient.Json
