import PlatformClient.Http.Token

namespace PlatformClient.Http

/-- The name of a header is compared without case and kept in lower case. -/
structure HeaderName where
  text : String
  deriving DecidableEq, Repr

namespace HeaderName

def lengthLimit : Nat := 0xFFFF

def ofString? (s : String) : Option HeaderName :=
  let cs := s.toList
  if ¬ cs.isEmpty ∧ cs.all isTokenChar ∧ cs.length ≤ lengthLimit then
    some ⟨String.ofList (cs.map Char.toLower)⟩
  else none

def accept : HeaderName := ⟨"accept"⟩
def authorization : HeaderName := ⟨"authorization"⟩
def contentType : HeaderName := ⟨"content-type"⟩
def userAgent : HeaderName := ⟨"user-agent"⟩

end HeaderName

/-- What is said of a name that is none. -/
def invalidHeaderName : String := "invalid HTTP header name"

/-- What is said of a value that is none. -/
def invalidHeaderValue : String := "failed to parse header value"

/-- A byte that may stand in the value of a header. -/
def isHeaderByte (byte : UInt8) : Bool := (32 ≤ byte && byte != 127) || byte == 9

/-- The bytes of a text, where they can be the value of a header. -/
def headerValue? (s : String) : Option Bytes :=
  if (Text.encode s).all isHeaderByte then some (Text.encode s) else none

/-- A value as text, where it has only visible characters, blanks and
tabs of ASCII. -/
def readableValue? (value : Bytes) : Option String :=
  if value.all fun byte => (32 ≤ byte && byte < 127) || byte == 9 then
    some (Text.decodeLossy value)
  else none

/-- Header lines, sorted by name. The values of one name keep the order in
which they were added. -/
structure Headers where
  lines : List (HeaderName × Bytes)
  deriving DecidableEq, Repr

namespace Headers

def empty : Headers := ⟨[]⟩

instance : Inhabited Headers := ⟨empty⟩

/-- Adds a line behind those of the same name. -/
def appendLine (name : HeaderName) (value : Bytes) :
    List (HeaderName × Bytes) → List (HeaderName × Bytes)
  | [] => [(name, value)]
  | (other, old) :: rest =>
    if name.text < other.text then (name, value) :: (other, old) :: rest
    else (other, old) :: appendLine name value rest

def append (headers : Headers) (name : HeaderName) (value : Bytes) : Headers :=
  ⟨appendLine name value headers.lines⟩

def erase (headers : Headers) (name : HeaderName) : Headers :=
  ⟨headers.lines.filter fun line => line.1 ≠ name⟩

/-- Sets the only value of a name. -/
def insert (headers : Headers) (name : HeaderName) (value : Bytes) : Headers :=
  (headers.erase name).append name value

/-- All values of a name. -/
def values (headers : Headers) (name : HeaderName) : List Bytes :=
  (headers.lines.filter fun line => line.1 = name).map (·.2)

/-- The first value of a name. -/
def get? (headers : Headers) (name : HeaderName) : Option Bytes := (headers.values name).head?

/-- The headers of a list of lines. -/
def ofLines (lines : List (HeaderName × Bytes)) : Headers :=
  lines.foldl (fun headers (name, value) => headers.append name value) empty

/-- Sets all names that the second headers have to the values there. -/
def override (headers upper : Headers) : Headers :=
  upper.lines.foldl (fun result (name, value) => result.append name value)
    ⟨headers.lines.filter fun line => (upper.get? line.1).isNone⟩

end Headers

end PlatformClient.Http
