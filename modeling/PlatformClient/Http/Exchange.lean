import PlatformClient.Http.Headers
import PlatformClient.Http.Status
import PlatformClient.Text.Base64
import PlatformClient.Url.Reader

namespace PlatformClient.Http

/-- A request as it is handed over for sending. -/
structure Request where
  method : Method
  url : Url
  headers : Headers
  body : Option Bytes
  deriving DecidableEq, Repr

/-- A response whose body has been read to its end. -/
structure Response where
  status : Status
  headers : Headers
  body : Bytes
  deriving DecidableEq, Repr

/-- Why a wait for the remote side ends before there is an answer. -/
inductive Interruption where
  | cancelled
  | deadlinePassed
  deriving DecidableEq, Repr

/-- How an exchange ends for the one who sent the request. -/
inductive Reply where
  | answered (response : Response)
  /-- The body of a response with this status ended early. -/
  | broken (status : Status)
  /-- The connection failed before there was a response. -/
  | lost
  /-- Such a request is never sent. -/
  | unsendable
  | interrupted (why : Interruption)
  deriving DecidableEq, Repr

end Http

namespace Url

/-- The user name and the password of an address in clear. There are none
where the name is no text. -/
def credentials? (url : Url) : Option (String × Option String) := do
  let authority ← url.authority
  let clear (escaped : String) := Text.decode? (Percent.decode (Text.encode escaped))
  let name ← clear authority.userName
  let password := authority.password.bind clear
  if name.isEmpty ∧ password.isNone then none else some (name, password)

/-- The address without the credentials that were taken from it. -/
def withoutCredentials (url : Url) : Url :=
  match url.credentials? with
  | none => url
  | some _ =>
    { url with authority := url.authority.map fun authority =>
        { authority with userName := "", password := none } }

/-- The address as the remote side and the errors of an exchange name it. -/
def contacted (url : Url) : String := url.withoutCredentials.print

/-- Whether requests can go to an address. -/
def isReachable (url : Url) : Bool :=
  let plain := match url.hostText with
    | none => false
    | some host => host.toList.all fun c =>
        c != '"' && c.toNat != 0x60 && c != '\x7b' && c != '\x7d'
  plain && (url.scheme == "http" || url.scheme == "https")

end Url

namespace Http

/-- The value of an authorization header that names a user. -/
def basicAuthorization (name : String) (password : Option String) : Bytes :=
  let clear := name ++ ":" ++ password.getD ""
  Text.encode ("Basic " ++ Text.Base64.encode (Text.encode clear))

/-- The authorization that the credentials of an address stand for. -/
def urlAuthorization (url : Url) : Headers :=
  match url.credentials? with
  | none => .empty
  | some (name, password) =>
    Headers.empty.insert .authorization (basicAuthorization name password)

/-- Why an exchange failed in the layer that sends requests. -/
inductive Failure where
  | unsendable (url : Url)
  /-- The address to send to is none. -/
  | noAddress
  | lost (url : Url)
  | broken (url : Url)
  deriving DecidableEq, Repr

def Failure.message : Failure → String
  | .unsendable url => "builder error for url (" ++ url.contacted ++ ")"
  | .noAddress => "builder error"
  | .lost url => "error sending request for url (" ++ url.contacted ++ ")"
  | .broken url => "error decoding response body for url (" ++ url.contacted ++ ")"

/-- A request as it arrives at the remote side. -/
structure Delivery where
  method : Method
  url : Url
  headers : Headers
  body : Bytes
  deriving DecidableEq, Repr

/-- Neither credentials nor the fragment leave with the address. -/
def Request.deliver (request : Request) : Delivery where
  method := request.method
  url := { request.url.withoutCredentials with fragment := none }
  headers := request.headers
  body := request.body.getD []

/-- What the remote side does with a request that arrives. -/
inductive Answer where
  | response (status : Status) (lines : List (HeaderName × Bytes)) (body : Bytes)
  /-- The connection breaks before the announced end of the body. -/
  | truncated (status : Status) (lines : List (HeaderName × Bytes))
  | drop
  /-- There is no answer until the caller stops waiting. -/
  | silence (ending : Interruption)
  deriving DecidableEq, Repr

/-- A response to a question for headers only, and one with some statuses, has
no body. -/
def hasBody (method : Method) (status : Status) : Bool :=
  method != .head && status.code != 204 && status.code != 304

/-- The value of a header without the blanks and tabs around it. -/
def trimValue (value : Bytes) : Bytes :=
  let left (value : Bytes) := value.dropWhile fun byte => byte == 32 || byte == 9
  (left (left value).reverse).reverse

def receivedHeaders (lines : List (HeaderName × Bytes)) : Headers :=
  .ofLines (lines.map fun (name, value) => (name, trimValue value))

/-- What the sender of a request learns of an answer. -/
def Answer.reply (method : Method) : Answer → Reply
  | .response status lines body =>
    .answered ⟨status, receivedHeaders lines, if hasBody method status then body else []⟩
  | .truncated status lines =>
    if hasBody method status then .broken status
    else .answered ⟨status, receivedHeaders lines, []⟩
  | .drop => .lost
  | .silence ending => .interrupted ending

/-- Says who sends, unless the request does so itself. -/
def Headers.signed (headers : Headers) (userAgent : Option Bytes) : Headers :=
  match userAgent, headers.get? .userAgent with
  | some name, none => headers.insert .userAgent name
  | _, _ => headers

/-- A request as it is sent by someone to an address that may name a user: its
own headers replace what the address says. -/
def Request.sentBy (request : Request) (userAgent : Option Bytes) : Request :=
  { request with
    headers := ((urlAuthorization request.url).override request.headers).signed userAgent }

end Http

end PlatformClient
