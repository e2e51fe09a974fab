import PlatformClient.Files.Fault
import PlatformClient.Login.Error
import PlatformClient.Problem.Classification

namespace PlatformClient

/-- Why no request could be made of a call. -/
inductive ConstructionFault where
  | baseWithoutPath
  | token
  | identity
  | headerName (name : String)
  | headerValue (name : String)
  | body (why : String)
  | sender
  | other (why : String)
  deriving DecidableEq, Repr

def ConstructionFault.message : ConstructionFault → String
  | .baseWithoutPath => "base URL cannot carry a path"
  | .token => "invalid token: " ++ Http.invalidHeaderValue
  | .identity => "invalid local auth options: " ++ Http.invalidHeaderValue
  | .headerName name => "invalid header name " ++ Text.quote name ++ ": " ++ Http.invalidHeaderName
  | .headerValue name =>
    "invalid value for header " ++ Text.quote name ++ ": " ++ Http.invalidHeaderValue
  | .body why => "failed to marshal body data: " ++ why
  | .sender => "builder error"
  | .other why => why

/-- What a caller may not ask for. -/
inductive Misuse where
  | documentWithContentType
  | bytesWithoutContentType
  | noFileName (contentType : String)
  | other (why : String)
  deriving DecidableEq, Repr

def Misuse.message : Misuse → String
  | .documentWithContentType =>
    "HTTP request body must be raw bytes if Content-Type is provided, found a JSON value instead"
  | .bytesWithoutContentType => "raw HTTP request body requires an explicit Content-Type header"
  | .noFileName contentType =>
    "filename not provided for response type " ++ Text.quote contentType
  | .other why => why

/-- Why a call failed. -/
inductive CallError where
  | construction (target : String) (fault : ConstructionFault)
  | misuse (what : Misuse)
  | profile (error : ProfileError)
  | transport (method : Http.Method) (url : String) (failure : Http.Failure)
  | interrupted (why : Http.Interruption) (method : Http.Method) (place : String)
  | unreadBody (method : Http.Method) (url : String) (status : Http.Status)
      (failure : Http.Failure)
  /-- There was no token, and none was obtained. -/
  | login (error : LoginError)
  /-- The token was refused, and no other was obtained. -/
  | refresh (error : LoginError)
  | status (error : StatusError)
  | decode (error : Json.Error) (excerpt : String)
  | unsaved (path : String) (fault : Files.Fault)

namespace CallError

def message : CallError → String
  | .construction target fault =>
    "failed to create a request for " ++ Text.quote target ++ ": " ++ fault.message
  | .misuse what => "(bug) " ++ what.message
  | .profile error => error.message
  | .transport method url failure =>
    method.name ++ " request to " ++ Text.quote url ++ " failed: " ++ failure.message
  | .interrupted .cancelled method place =>
    method.name ++ " request to " ++ Text.quote place ++ " was cancelled"
  | .interrupted .deadlinePassed method place =>
    method.name ++ " request to " ++ Text.quote place ++ " exceeded its deadline"
  | .unreadBody method url seen failure =>
    "failed reading response to " ++ method.name ++ " to " ++ Text.quote url ++ " (status " ++
      seen.describe ++ "): " ++ failure.message
  | .login error => error.message
  | .refresh error => "failed to login: " ++ error.message
  | .status error => error.display
  | .decode error excerpt =>
    "failed to JSON-parse the response: " ++ error.message ++ " (" ++ Text.quote excerpt ++ ")"
  | .unsaved path fault =>
    "failed to save the response payload as " ++ Text.quote path ++ ": " ++ fault.message

/-- How much of a body is shown in an error. -/
def excerptLimit : Nat := 256

def ofUndecoded (error : Json.Error) (body : Bytes) : CallError :=
  .decode error (Text.decodeLossy (body.take excerptLimit))

def status? : CallError → Option Http.Status
  | .status error => some error.status
  | _ => none

def problem? : CallError → Option Problem
  | .status error => error.problem
  | _ => none

def isAuthFailure : CallError → Bool
  | .login _ => true
  | .refresh _ => true
  | .status error => error.status = Http.unauthorized || error.status = Http.forbidden
  | _ => false

end CallError

end PlatformClient
