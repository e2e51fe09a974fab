import PlatformClient.Call.Client
import PlatformClient.Proofs.AlikeRuns

namespace PlatformClient

namespace Login

theorem serviceCredentials_alike {profile other : Profile} (alike : profile.Alike other) :
    AlikeResults (fun credentials otherCredentials =>
        otherCredentials = { credentials with clientSecret := other.clientSecret })
      (serviceCredentials profile) (serviceCredentials other) := by
  have secret := alike.clientSecret
  rw [alike.rest]
  unfold serviceCredentials
  refine AlikeResults.bind (.refl (fun _ => rfl) (profile.baseUrl.mapError LoginError.profile))
    fun url otherUrl same => ?_
  subst same
  simp only [secret]
  by_cases tenant : profile.tenantId.isEmpty
  · simp only [tenant, if_true]
    exact .error _
  by_cases client : profile.clientId.isEmpty = true ∨ other.clientSecret.isEmpty = true
  · simp only [tenant, client, if_true]
    exact .error _
  · simp only [tenant, client, if_false]
    exact .ok rfl

theorem tokenRequest_alike (credentials : ServiceCredentials) (otherSecret : String) (url : Url) :
    (tokenRequest credentials url).Alike
      (tokenRequest { credentials with clientSecret := otherSecret } url) := by
  have named : Http.AlikeLines
      (.authorization, Http.basicAuthorization credentials.clientId (some credentials.clientSecret))
      (.authorization, Http.basicAuthorization credentials.clientId (some otherSecret)) :=
    ⟨rfl, fun differs => absurd rfl differs⟩
  have authorized := (Http.Headers.Alike.refl (Http.urlAuthorization url)).append named
  exact ⟨rfl, rfl, (authorized.append (.refl _)).append (.refl _), rfl⟩

theorem tokenOf_alike {response other : Http.Response} {token otherToken : String}
    (success : response.status.isSuccess = true) (otherSuccess : other.status.isSuccess = true)
    (grant : readGrant response.body = .ok token)
    (otherGrant : readGrant other.body = .ok otherToken) (alike : AlikeSecrets token otherToken) :
    AlikeResults AlikeSecrets (tokenOf response) (tokenOf other) := by
  unfold tokenOf
  rw [success, otherSuccess, grant, otherGrant]
  change AlikeResults AlikeSecrets
    (if token.isEmpty then throw (.invalidResponse "empty access_token") else pure token :
      Except LoginError String)
    (if otherToken.isEmpty then throw (.invalidResponse "empty access_token") else pure otherToken)
  rw [alike.isEmpty_eq]
  split
  · exact .error _
  · exact .ok alike

theorem tokenOfReply_alike (url : Url) {reply other : Http.Reply}
    (grants : AlikeGrants reply other) :
    AlikeResults AlikeSecrets (tokenOfReply url reply) (tokenOfReply url other) := by
  cases grants with
  | same => exact .refl AlikeSecrets.refl _
  | granted success otherSuccess grant otherGrant alike =>
    exact (tokenOf_alike success otherSuccess grant otherGrant alike).mapError Halt.failed

/-- The secret of the client goes into the authorization of the token request, and the token
that is given goes into the profile. Everything else that is done is the same. -/
theorem serviceLogin_alike (userAgent : Option Bytes) :
    Program.Alike (AlikeResults (· = ·)) (serviceLogin userAgent).run
      (serviceLogin userAgent).run := by
  unfold serviceLogin
  refine Attempt.alike_bind (Attempt.alike_lift Program.alike_readProfile)
    fun profile otherProfile profiles => ?_
  refine Attempt.alike_bind
    (Attempt.alike_result ((serviceCredentials_alike profiles).mapError Halt.failed))
    fun credentials otherCredentials same => ?_
  subst same
  refine Attempt.alike_bind (Attempt.alike_result (.refl (fun _ => rfl) _)) fun url _ same => ?_
  subst same
  have requests := tokenRequest_alike credentials otherProfile.clientSecret url
  refine Attempt.alike_bind (Attempt.alike_lift (Program.alike_tokenRequest
    ⟨rfl, rfl, requests.headers.signed userAgent, rfl⟩)) fun reply otherReply grants => ?_
  refine Attempt.alike_bind (Attempt.alike_result (tokenOfReply_alike url grants))
    fun token otherToken tokens => ?_
  refine Attempt.alike_bind (Attempt.alike_lift (Program.alike_storeToken tokens)) fun _ _ _ => ?_
  exact Attempt.alike_lift (Program.alike_record _)

theorem profileLogin_alike (userAgent : Option Bytes) :
    Program.Alike (AlikeResults (· = ·)) (profileLogin userAgent).run
      (profileLogin userAgent).run := by
  unfold profileLogin
  refine Attempt.alike_bind (Attempt.alike_lift Program.alike_readProfile)
    fun profile otherProfile profiles => ?_
  refine Attempt.alike_bind (Attempt.alike_lift (Program.alike_record _)) fun _ _ _ => ?_
  rw [profiles.authMethod_eq]
  cases otherProfile.authMethod with
  | servicePrincipal => exact serviceLogin_alike userAgent
  | _ => exact Attempt.alike_result (.refl (fun _ => rfl) _)

theorem loginElsewhere_alike :
    Program.Alike (AlikeResults (· = ·)) loginElsewhere.run loginElsewhere.run := by
  unfold loginElsewhere
  refine Attempt.alike_bind Program.alike_askForToken fun token otherToken tokens => ?_
  exact Attempt.alike_lift (Program.alike_storeToken tokens)

end Login

/-- A login that gives away nothing of the secrets that it handles: compared with itself in
other surroundings, it takes alike steps. -/
def LoginProcedure.Discreet (procedure : LoginProcedure) : Prop :=
  ∀ userAgent, Program.Alike (AlikeResults (· = ·)) (procedure.program userAgent).run
    (procedure.program userAgent).run

namespace LoginProcedure

theorem profile_discreet : profile.Discreet := Login.profileLogin_alike

theorem elsewhere_discreet : elsewhere.Discreet := fun _ => Login.loginElsewhere_alike

theorem Discreet.run {procedure : LoginProcedure} (discreet : procedure.Discreet)
    (userAgent : Option Bytes) :
    Program.Alike (AlikeResults (· = ·)) (procedure.run userAgent).run
      (procedure.run userAgent).run := by
  change Program.Alike _ (Program.record .loginBegun >>= fun _ => _)
    (Program.record .loginBegun >>= fun _ => _)
  refine (Program.alike_record _).bind fun _ _ _ => ?_
  refine (discreet userAgent).bind fun result otherResult results => ?_
  obtain rfl := results.eq_of_eq
  exact (Program.alike_record _).bind fun _ _ _ => .done results

end LoginProcedure

namespace Client

variable {client : Client}

theorem showCommand_alike {request other : Http.Request} (alike : request.Alike other) :
    Program.Alike (· = ·) (client.showCommand request) (client.showCommand other) := by
  unfold showCommand
  rw [Http.Curl.command_eq alike]
  cases client.commands with
  | off => exact .done rfl
  | handed => exact Program.alike_record _
  | logged => exact (Program.alike_record _).bind fun _ _ _ => Program.alike_record _

theorem logIn_alike (discreet : client.login.Discreet) :
    Program.Alike (AlikeResults (· = ·)) client.logIn.run client.logIn.run :=
  Attempt.alike_adapt _ (discreet.run client.userAgent)

theorem ensureToken_alike (discreet : client.login.Discreet) :
    Program.Alike (AlikeResults (· = ·)) client.ensureToken.run client.ensureToken.run := by
  unfold ensureToken
  refine Attempt.alike_bind (Attempt.alike_lift Program.alike_readProfile)
    fun profile otherProfile profiles => ?_
  rw [profiles.hasToken_eq]
  split
  · exact Attempt.alike_result (.ok rfl)
  · exact Attempt.alike_bind (Attempt.alike_lift (Program.alike_record _)) fun _ _ _ =>
      logIn_alike discreet

theorem refreshToken_alike (discreet : client.login.Discreet) :
    Program.Alike (AlikeResults (· = ·)) client.refreshToken.run client.refreshToken.run := by
  unfold refreshToken
  exact Attempt.alike_bind (Attempt.alike_lift (Program.alike_record _)) fun _ _ _ =>
    Attempt.alike_adapt _ (discreet.run client.userAgent)

theorem context_alike : Program.Alike (AlikeResults CallContext.Alike) context.run context.run := by
  unfold context
  exact Attempt.alike_bind (Attempt.alike_lift Program.alike_readProfile) fun _ _ profiles =>
    Attempt.alike_result (profiles.context.mapError CallError.profile)

end Client

end PlatformClient
