import PlatformClient.Call.Client
import PlatformClient.Call.Payload

namespace PlatformClient

/-- A call is tried a second time at most. -/
inductive Trial where
  | first
  | afterRefresh
  deriving DecidableEq, Repr

/-- What follows a response. There is no third request, so this is all of the
protocol that a status decides. -/
inductive Transition where
  | succeed
  | refreshAndRetry
  | fail
  deriving DecidableEq, Repr

/-- Only the first refusal of the token is worth another trial. Besides the statuses
of success, the one that points elsewhere is a result: it is not followed. -/
def Transition.of (trial : Trial) (status : Http.Status) : Transition :=
  if status.isSuccess ∨ status = Http.seeOther then .succeed
  else if trial = .first ∧ status = Http.forbidden then .refreshAndRetry
  else .fail

/-- What one wants of the platform. -/
structure Call where
  method : Http.Method
  path : String
  body : Option CallBody

namespace Call

/-- Attributes an interruption to a call. `place` says where it was, and other
failures say so themselves. -/
def errorOfHalt (method : Http.Method) (place : String) : Halt CallError → CallError
  | .failed error => error
  | .interrupted why => .interrupted why method place

/-- Runs something that may wait for the remote side as a part of a call. A login
knows nothing of calls, so what ends it has to be given the method and the place
here. -/
def within {α : Type} (method : Http.Method) (place : String)
    (program : Attempt (Halt CallError) α) : Attempt CallError α :=
  program.adapt (errorOfHalt method place)

/-- Tells the indicator of progress, unless the call is quiet. -/
def indicate (options : CallOptions) (event : ProgressEvent) : Program Unit :=
  if options.quiet then pure () else Program.record (.progress event)

/-- Ends a run of the indicator. -/
def stopIndicator (options : CallOptions) (ending : ProgressEnding) : Program Unit :=
  indicate options ending.event

def label (trial : Trial) (request : Http.Request) : String :=
  let target := "(" ++ request.method.name ++ " " ++ request.url.displayPath ++ ")"
  match trial with
  | .first => "Platform API call " ++ target
  | .afterRefresh => "Platform API call, retry after login " ++ target

/-- What a reply to a request comes to. A body that breaks off is told apart from an
exchange without an answer, because its status is known. -/
def responseOfReply (request : Http.Request) : Http.Reply → Except CallError Http.Response
  | .answered response => .ok response
  | .broken status =>
    .error (.unreadBody request.method request.url.print status (.broken request.url))
  | .lost => .error (.transport request.method request.url.print (.lost request.url))
  | .unsendable =>
    .error (.transport request.method request.url.print (.unsendable request.url))
  | .interrupted why => .error (.interrupted why request.method request.url.print)

/-- Sends the request of a call as the profile is now, while the indicator shows it.
The profile is read anew for each request, since a refresh may have changed it. The
indicator is left running only behind a whole response. -/
def exchange (client : Client) (call : Call) (options : CallOptions) (trial : Trial) :
    Attempt CallError Http.Response := do
  let context ← Client.context
  let request ← ExceptT.mk <| pure <|
    context.request call.method call.path call.body options.headers
  client.showCommand request
  indicate options (.start (label trial request))
  let reply ← Program.send .call (request.sentBy client.userAgent)
  match responseOfReply request reply with
  | .ok response => return response
  | .error error =>
    stopIndicator options .dropped
    throw error

/-- Ends a call whose response is a failure. Whether the failure was expected makes
a difference for the log alone. -/
def reject (options : CallOptions) (response : Http.Response) :
    Attempt CallError Http.Response := do
  stopIndicator options (.finished false)
  if options.expected.contains response.status then
    Program.log .info "Platform API call failed with expected error"
  else
    Program.log .error "Platform API call failed"
  throw (.status (.classify response.status response.body))

/-- The response of a call: the first one, unless that refuses the token. Then
another token is obtained, and the response to the second request counts, also if
that refuses the token again. -/
def response (client : Client) (call : Call) (options : CallOptions) :
    Attempt CallError Http.Response := do
  within call.method call.path client.ensureToken
  let first ← exchange client call options .first
  match Transition.of .first first.status with
  | .succeed =>
    stopIndicator options (.finished true)
    return first
  | .fail => reject options first
  | .refreshAndRetry =>
    stopIndicator options .hidden
    within call.method call.path client.refreshToken
    Program.log .info "Retrying the request with the refreshed token"
    let second ← exchange client call options .afterRefresh
    match Transition.of .afterRefresh second.status with
    | .succeed =>
      stopIndicator options (.finished true)
      return second
    | _ => reject options second

/-- Makes a call. The options keep the headers of the response, also where its
payload cannot be handled; where there is no response with success, they keep what
they had. -/
def execute (client : Client) (call : Call) (options : CallOptions) :
    Program (CallOptions × Except CallError Payload) := do
  Program.log .info "Calling the observability platform API"
  match ← (response client call options).run with
  | .error error => return (options, .error error)
  | .ok received =>
    let payload ← (Payload.ofResponse call.method options.headers received).run
    return ({ options with responseHeaders := some received.headers }, payload)

/-- Makes a call and reads the document that it gives. -/
def decoded (client : Client) (call : Call) (options : CallOptions) :
    Program (CallOptions × Except CallError (Option Json)) := do
  let (options, result) ← execute client call options
  return (options, result >>= Payload.decode)

/-- Makes a call with a document as its body, or with none. The document is
what encoding a value of the caller has given. -/
def document (client : Client) (method : Http.Method) (path : String)
    (body : Option (Except String Json)) (options : CallOptions) :
    Program (CallOptions × Except CallError (Option Json)) :=
  match body with
  | none => decoded client ⟨method, path, none⟩ options
  | some (.ok value) => decoded client ⟨method, path, some (.document value)⟩ options
  | some (.error why) => return (options, .error (.construction path (.body why)))

/-- Deletes something. The response is never looked into. -/
def delete (client : Client) (path : String) (options : CallOptions) :
    Program (CallOptions × Except CallError Unit) := do
  let (options, result) ← execute client ⟨.delete, path, none⟩ options
  return (options, result.map fun _ => ())

/-- Asks for something of whatever type the caller's headers say. -/
def get (client : Client) (path : String) (options : CallOptions) :
    Program (CallOptions × Except CallError (Option Json)) :=
  decoded client ⟨.get, path, none⟩ options

/-- Sends bytes, whose type the caller's headers say. -/
def post (client : Client) (path : String) (content : Bytes) (options : CallOptions) :
    Program (CallOptions × Except CallError (Option Json)) :=
  decoded client ⟨.post, path, some (.bytes content)⟩ options

end Call

end PlatformClient
