import PlatformClient.Call.Request
import PlatformClient.Http.Curl
import PlatformClient.Login.Procedure

namespace PlatformClient

/-- How a client is set up. -/
structure ClientSettings where
  showsCommands : Bool := false
  userAgent : String := "obsctl/0.2.0"
  connectTimeoutMillis : Nat := 30000
  deriving DecidableEq, Repr, Inhabited

/-- What becomes of the commands that repeat requests. One who embeds the client
takes them, and the command line has them in its log besides. -/
inductive CommandLog where
  | off
  /-- They are handed over. -/
  | handed
  /-- They are handed over, and the log says so. -/
  | logged
  deriving DecidableEq, Repr

/-- One who makes calls. It has no profile of its own: the profile belongs to the
surroundings, in which other clients may use it as well. -/
structure Client where
  login : LoginProcedure := .profile
  commands : CommandLog := .off
  userAgent : Option Bytes
  deriving Inhabited

namespace Client

/-- A client that names itself as the settings say, which fails where that name
cannot be sent. Commands are shown only where the settings ask for them. -/
def ofSettings (settings : ClientSettings) (login : LoginProcedure) (commands : CommandLog) :
    Except CallError Client :=
  match Http.headerValue? settings.userAgent with
  | none => .error (.construction "http client" .sender)
  | some userAgent => .ok ⟨login, if settings.showsCommands then commands else .off, some userAgent⟩

/-- Shows the command that repeats a request. -/
def showCommand (client : Client) (request : Http.Request) : Program Unit := do
  match client.commands with
  | .off => return ()
  | .handed => Program.record (.command (Http.Curl.command request))
  | .logged => do
    Program.record (.command (Http.Curl.command request))
    Program.log .info "curl command equivalent"

/-- What a halted login means for the one who needed it. An interruption means the
same to everyone. -/
def haltOfLogin (failure : LoginError → CallError) : Halt LoginError → Halt CallError
  | .failed error => .failed (failure error)
  | .interrupted why => .interrupted why

/-- Logs in, whether there is a token or not. -/
def logIn (client : Client) : Attempt (Halt CallError) Unit :=
  (client.login.run client.userAgent).adapt (haltOfLogin .login)

/-- Logs in unless there is a token, of which nothing more is asked than that it is
not empty. -/
def ensureToken (client : Client) : Attempt (Halt CallError) Unit := do
  let profile ← Program.readProfile
  if profile.hasToken then return ()
  Program.log .info "No auth token available, trying to log in"
  client.logIn

/-- Obtains another token in place of one that was refused, without a look at
whether another client has done so meanwhile. -/
def refreshToken (client : Client) : Attempt (Halt CallError) Unit := do
  Program.log .warning "Current token is no longer valid; trying to refresh"
  (client.login.run client.userAgent).adapt (haltOfLogin .refresh)

/-- What the profile says at this moment. It is read before the request is made, and
a token that changes later does not get into that request. -/
def context : Attempt CallError CallContext := do
  let profile ← Program.readProfile
  ExceptT.mk (pure (profile.context.mapError .profile))

end Client

end PlatformClient
