import PlatformClient.Call.Program
import PlatformClient.Login.Grant

namespace PlatformClient

namespace Login

/-- The credentials of a service, all of which are needed. -/
structure ServiceCredentials where
  baseUrl : Url
  tenantId : String
  clientId : String
  clientSecret : String
  deriving DecidableEq, Repr

def serviceCredentials (profile : Profile) : Except LoginError ServiceCredentials := do
  let baseUrl ← profile.baseUrl.mapError .profile
  if profile.tenantId.isEmpty then throw (.missingCredential "tenant_id" .servicePrincipal)
  if profile.clientId.isEmpty ∨ profile.clientSecret.isEmpty then
    throw (.missingCredential "client_id/client_secret" .servicePrincipal)
  return ⟨baseUrl, profile.tenantId, profile.clientId, profile.clientSecret⟩

/-- The text without the slashes at its end. -/
def withoutFinalSlashes (cs : List Char) : List Char := (cs.reverse.dropWhile (· == '/')).reverse

/-- The address where tokens are given out. It is put together as a text behind the
whole address of the platform, query and fragment included, and then read again. -/
def tokenUrl (credentials : ServiceCredentials) : Except Url.ReadError Url :=
  Url.readChars <|
    withoutFinalSlashes credentials.baseUrl.printChars ++ "/auth/".toList ++
      credentials.tenantId.toList ++ "/default/oauth2/token".toList

/-- The request for a token. The credentials follow those that the address itself
may name, so both can be sent. -/
def tokenRequest (credentials : ServiceCredentials) (url : Url) : Http.Request where
  method := .post
  url := url
  headers :=
    (((Http.urlAuthorization url).append .authorization
      (Http.basicAuthorization credentials.clientId (some credentials.clientSecret))).append
      .contentType (Text.encode "application/x-www-form-urlencoded")).append
      .accept (Text.encode "application/json")
  body := some (Text.encode "grant_type=client_credentials")

/-- The token in the answer to a request for one. Nothing is asked of it but that it
is not empty; whether it can be sent shows in the next request. -/
def tokenOf (response : Http.Response) : Except LoginError String := do
  if ¬ response.status.isSuccess then
    throw (.rejected response.status (Text.decodeLossy response.body))
  let token ← (readGrant response.body).mapError fun error => .invalidResponse error.message
  if token.isEmpty then throw (.invalidResponse "empty access_token")
  return token

/-- What the reply to a request for a token comes to. -/
def tokenOfReply (url : Url) : Http.Reply → Except (Halt LoginError) String
  | .answered response => (tokenOf response).mapError .failed
  | .broken _ => .error (.failed (.exchange (.broken url)))
  | .lost => .error (.failed (.exchange (.lost url)))
  | .unsendable => .error (.failed (.exchange (.unsendable url)))
  | .interrupted why => .error (.interrupted why)

/-- Obtains a token for a service. It is stored only when nothing can fail any more,
so a login that comes to nothing leaves the profile alone. -/
def serviceLogin (userAgent : Option Bytes) : Attempt (Halt LoginError) Unit := do
  let profile ← Program.readProfile
  let credentials ← ExceptT.mk (pure ((serviceCredentials profile).mapError .failed))
  let url ← ExceptT.mk <| pure <|
    (tokenUrl credentials).mapError fun _ => .failed (.exchange .noAddress)
  let request := tokenRequest credentials url
  let reply ← Program.send .token { request with headers := request.headers.signed userAgent }
  let token ← ExceptT.mk (pure (tokenOfReply url reply))
  Program.storeToken token
  Program.log .info "Service principal login successful"

/-- Logs in as the profile says. Where the platform takes an identity on trust,
there is nothing to obtain, and a token that was given from outside cannot be
renewed. -/
def profileLogin (userAgent : Option Bytes) : Attempt (Halt LoginError) Unit := do
  let profile ← Program.readProfile
  Program.log .info "Logging in"
  match profile.authMethod with
  | .none => throw (.failed .notConfigured)
  | .jwt => throw (.failed (.notRefreshable .jwt))
  | .servicePrincipal => serviceLogin userAgent
  | .local => return ()

def loginElsewhere : Attempt (Halt LoginError) Unit := do
  let token ← ExceptT.mk Program.askForToken
  Program.storeToken token

theorem serviceLogin_incidental (userAgent : Option Bytes) :
    (serviceLogin userAgent).run.Uses (·.isIncidental) := by
  unfold serviceLogin
  refine Attempt.uses_bind (Attempt.uses_lift (Program.uses_step rfl)) fun profile => ?_
  refine Attempt.uses_bind (Attempt.uses_result _) fun credentials => ?_
  refine Attempt.uses_bind (Attempt.uses_result _) fun url => ?_
  refine Attempt.uses_bind (Attempt.uses_lift (Program.uses_step rfl)) fun reply => ?_
  refine Attempt.uses_bind (Attempt.uses_result _) fun token => ?_
  refine Attempt.uses_bind (Attempt.uses_lift (Program.uses_step rfl)) fun _ => ?_
  exact Attempt.uses_lift (Program.uses_step rfl)

theorem profileLogin_incidental (userAgent : Option Bytes) :
    (profileLogin userAgent).run.Uses (·.isIncidental) := by
  unfold profileLogin
  refine Attempt.uses_bind (Attempt.uses_lift (Program.uses_step rfl)) fun profile => ?_
  refine Attempt.uses_bind (Attempt.uses_lift (Program.uses_step rfl)) fun _ => ?_
  cases profile.authMethod with
  | servicePrincipal => exact serviceLogin_incidental userAgent
  | _ => exact Attempt.uses_result _

theorem loginElsewhere_incidental : loginElsewhere.run.Uses (·.isIncidental) := by
  unfold loginElsewhere
  refine Attempt.uses_bind (Program.uses_step rfl) fun token => ?_
  exact Attempt.uses_lift (Program.uses_step rfl)

end Login

/-- How a login obtains a token. It may ask whomever it wants, but makes no call
of its own. -/
structure LoginProcedure where
  program : Option Bytes → Attempt (Halt LoginError) Unit
  incidental : ∀ userAgent, (program userAgent).run.Uses (·.isIncidental)

namespace LoginProcedure

/-- The login that the profile asks for. -/
def profile : LoginProcedure := ⟨Login.profileLogin, Login.profileLogin_incidental⟩

/-- A login that obtains the token from elsewhere. -/
def elsewhere : LoginProcedure :=
  ⟨fun _ => Login.loginElsewhere, fun _ => Login.loginElsewhere_incidental⟩

instance : Inhabited LoginProcedure := ⟨profile⟩

/-- Why a login has come to nothing, if it has. -/
def halt? : Except (Halt LoginError) Unit → Option (Halt LoginError)
  | .ok () => none
  | .error halt => some halt

/-- Puts a new token into the profile. Beginning and end are recorded around the
procedure, whatever it does. -/
def run (procedure : LoginProcedure) (userAgent : Option Bytes) :
    Attempt (Halt LoginError) Unit := ExceptT.mk do
  Program.record .loginBegun
  let result ← (procedure.program userAgent).run
  Program.record (.loginEnded (halt? result))
  return result

end LoginProcedure

end PlatformClient
