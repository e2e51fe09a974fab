import PlatformClient.Http.Headers
import PlatformClient.Http.Status

namespace PlatformClient

/-- The headers that a caller asks for. Their names are told apart as they are
written, and their order means nothing. Two spellings of one name can therefore be
asked for at once. -/
abbrev CallerHeaders := List (String × String)

namespace CallerHeaders

/-- Sets the value of a name as it is written. Other spellings of it stay. -/
def set (headers : CallerHeaders) (name value : String) : CallerHeaders :=
  if headers.any (·.1 == name) then
    headers.map fun header => if header.1 = name then (name, value) else header
  else headers ++ [(name, value)]

def get? (headers : CallerHeaders) (name : String) : Option String := headers.lookup name

def sameName (a b : String) : Bool :=
  a.toList.map Char.toLower == b.toList.map Char.toLower

/-- Whether a value that is not empty is asked for under a name, in whatever
case it is written. -/
def asksFor (headers : CallerHeaders) (name : String) : Bool :=
  headers.any fun (other, value) => sameName other name && !value.isEmpty

end CallerHeaders

/-- The settings of one call. -/
structure CallOptions where
  headers : CallerHeaders := []
  /-- The headers of the last response with success. -/
  responseHeaders : Option Http.Headers := none
  /-- The statuses of failures that are no surprise. -/
  expected : List Http.Status := []
  quiet : Bool := false
  cancellable : Bool := false
  /-- After how many seconds the call is given up. -/
  timeLimit : Option Nat := none
  deriving DecidableEq, Repr, Inhabited

/-- The header that names the file for a response that is a file. -/
def fileNameHeader : String := "solutionFileName"

def CallOptions.saveTo (options : CallOptions) (fileName : String) : CallOptions :=
  { options with headers := options.headers.set fileNameHeader fileName }

end PlatformClient
