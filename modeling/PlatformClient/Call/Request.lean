import PlatformClient.Call.Error
import PlatformClient.Call.Identity
import PlatformClient.Call.Options
import PlatformClient.Url.Join

namespace PlatformClient

/-- What a caller wants to send: a document, whose type is not the caller's
to state, or bytes, whose type is. -/
inductive CallBody where
  | document (value : Json)
  | bytes (content : Bytes)

/-- Where and as whom to send, as the profile says at one moment. -/
structure CallContext where
  baseUrl : Url
  token : String
  authMethod : AuthMethod
  identity : LocalIdentity
  deriving DecidableEq, Repr

def Profile.context (profile : Profile) : Except ProfileError CallContext := do
  return ⟨← profile.baseUrl, profile.token, profile.authMethod, profile.identity⟩

namespace CallContext

/-- The bytes to send. Which of the two kinds they are has to agree with whether the
caller states a type; an empty value states none. -/
def encodeBody (headers : CallerHeaders) : Option CallBody → Except CallError (Option Bytes)
  | none => .ok none
  | some (.document value) =>
    if headers.asksFor "content-type" then .error (.misuse .documentWithContentType)
    else .ok (some (Text.encode value.compact))
  | some (.bytes content) =>
    if headers.asksFor "content-type" then .ok (some content)
    else .error (.misuse .bytesWithoutContentType)

/-- The address of a call, which there is for every path unless the base has no room
for any. -/
def callUrl (context : CallContext) (path : String) : Except CallError Url :=
  match context.baseUrl.join? path with
  | some url => .ok url
  | none => .error (.construction context.baseUrl.print .baseWithoutPath)

/-- The type of a document that is sent, which for a change in parts differs
from the others. -/
def documentType (method : Http.Method) : String :=
  if method = .patch then "application/merge-patch+json" else "application/json"

/-- The headers that do not depend on who sends. The type of a document is always
stated, as none of the caller's can be in its way. -/
def contentHeaders (method : Http.Method) (headers : CallerHeaders) (body : Option CallBody) :
    Http.Headers :=
  let result := match body with
    | some (.document _) =>
      Http.Headers.empty.insert .contentType (Text.encode (documentType method))
    | _ => .empty
  if headers.asksFor "accept" then result
  else result.insert .accept (Text.encode "application/json")

/-- Adds who sends: the token, unless the caller states an authorization, and the
identity where it is taken on trust. The token is sent even then, and may be empty. -/
def addSender (context : CallContext) (target : String) (headers : CallerHeaders)
    (result : Http.Headers) : Except CallError Http.Headers := do
  let result ←
    if headers.asksFor "authorization" then pure result
    else match Http.headerValue? ("Bearer " ++ context.token) with
      | some value => pure (result.insert .authorization value)
      | none => throw (.construction target .token)
  if context.authMethod = .local then
    match context.identity.addTo result with
    | (result, true) => return result
    | (_, false) => throw (.construction target .identity)
  else return result

/-- Sets a header that the caller asks for. An empty value asks for nothing, so it
does not take away what is there. -/
def addCallerHeader (target : String) (result : Http.Headers) (header : String × String) :
    Except CallError Http.Headers :=
  let (name, value) := header
  if value.isEmpty then .ok result
  else match Http.HeaderName.ofString? name, Http.headerValue? value with
    | none, _ => .error (.construction target (.headerName name))
    | some _, none => .error (.construction target (.headerValue name))
    | some name, some value => .ok (result.insert name value)

/-- Makes the request of a call. What the caller asks for comes last and replaces
everything else. The body is looked at first, so that its faults are named before
those of the address and the headers. -/
def request (context : CallContext) (method : Http.Method) (path : String)
    (body : Option CallBody) (headers : CallerHeaders) : Except CallError Http.Request := do
  let content ← encodeBody headers body
  let url ← context.callUrl path
  let result ← context.addSender url.print headers (contentHeaders method headers body)
  let result ← headers.foldlM (addCallerHeader url.print) result
  return ⟨method, url, result, content⟩

end CallContext

end PlatformClient
