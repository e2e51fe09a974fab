import PlatformClient.Login.Procedure
import PlatformClient.Proofs.Outcomes
import PlatformClient.Proofs.Runs

namespace PlatformClient.Login

/-- The request with which a service asks for a token as its profile says. -/
def serviceRequest (userAgent : Option Bytes) (profile : Profile) :
    Except LoginError Http.Request := do
  let credentials ← serviceCredentials profile
  let url ← (tokenUrl credentials).mapError fun _ => .exchange .noAddress
  let request := tokenRequest credentials url
  return { request with headers := request.headers.signed userAgent }

/-- What the profile says comes before anything is sent. Written in this order, the login is
a reading, a request, a reply and a token, and each of them can only fail or lead on to the
next. -/
theorem serviceLogin_eq (userAgent : Option Bytes) :
    serviceLogin userAgent = (do
      let profile ← Program.readProfile
      let request ← ExceptT.mk (pure ((serviceRequest userAgent profile).mapError .failed))
      let reply ← Program.send .token request
      let token ← ExceptT.mk (pure (tokenOfReply request.url reply))
      Program.storeToken token
      Program.log .info "Service principal login successful") := by
  unfold serviceLogin
  refine congrArg _ (funext fun profile => ?_)
  unfold serviceRequest
  cases serviceCredentials profile with
  | error error => rfl
  | ok credentials =>
    have known : (Except.ok credentials).mapError Halt.failed =
      (.ok credentials : Except (Halt LoginError) ServiceCredentials) := rfl
    have attempted : ∀ next : ServiceCredentials → Attempt (Halt LoginError) Unit,
      ExceptT.mk (pure (.ok credentials)) >>= next = next credentials := fun _ => rfl
    have requested : ∀ next : ServiceCredentials → Except LoginError Http.Request,
      Except.ok credentials >>= next = next credentials := fun _ => rfl
    rw [known, attempted, requested]
    cases tokenUrl credentials <;> rfl

/-- The ways that the login of a service can go. Only the last one stores a token, and in
all others the profile has been read and nothing more. -/
inductive ServiceCourse (userAgent : Option Bytes) :
    List Step → Except (Halt LoginError) Unit → Prop
  | unsent {profile : Profile} {error : LoginError}
      (unknown : serviceRequest userAgent profile = .error error) :
      ServiceCourse userAgent [⟨.readProfile, profile⟩] (.error (.failed error))
  | ungranted {profile : Profile} {request : Http.Request} {reply : Http.Reply}
      {halt : Halt LoginError} (known : serviceRequest userAgent profile = .ok request)
      (refused : tokenOfReply request.url reply = .error halt) :
      ServiceCourse userAgent [⟨.readProfile, profile⟩, ⟨.send .token request, reply⟩]
        (.error halt)
  | granted (message : String) {profile : Profile} {request : Http.Request} {reply : Http.Reply}
      {token : String} (known : serviceRequest userAgent profile = .ok request)
      (given : tokenOfReply request.url reply = .ok token) :
      ServiceCourse userAgent [⟨.readProfile, profile⟩, ⟨.send .token request, reply⟩,
        ⟨.storeToken token, ()⟩, Step.recorded (.log .info message)] (.ok ())

theorem ServiceCourse.of_runs {userAgent : Option Bytes} {steps : List Step}
    {result : Except (Halt LoginError) Unit}
    (runs : (serviceLogin userAgent).run.Runs steps result) :
    ServiceCourse userAgent steps result := by
  rw [serviceLogin_eq] at runs
  obtain ⟨_, profile, _, rfl, start, afterStart⟩ := Attempt.runs_lift_bind_iff.mp runs
  obtain rfl := Program.runs_step_iff.mp start
  cases known : serviceRequest userAgent profile with
  | error error =>
    rw [known] at afterStart
    obtain ⟨rfl, rfl⟩ := Program.runs_pure_iff.mp afterStart
    exact .unsent known
  | ok request =>
    rw [known] at afterStart
    change (liftM (Program.send .token request) >>= _ :
      Attempt (Halt LoginError) Unit).run.Runs _ _ at afterStart
    obtain ⟨_, reply, _, rfl, answer, afterReply⟩ := Attempt.runs_lift_bind_iff.mp afterStart
    obtain rfl := Program.runs_step_iff.mp answer
    cases given : tokenOfReply request.url reply with
    | error halt =>
      rw [given] at afterReply
      obtain ⟨rfl, rfl⟩ := Program.runs_pure_iff.mp afterReply
      exact .ungranted known given
    | ok token =>
      rw [given] at afterReply
      change (liftM (Program.storeToken token) >>= _ :
        Attempt (Halt LoginError) Unit).run.Runs _ _ at afterReply
      obtain ⟨_, _, _, rfl, stored, afterStore⟩ := Attempt.runs_lift_bind_iff.mp afterReply
      obtain rfl := Program.runs_step_iff.mp stored
      obtain ⟨_, noted, rfl⟩ := Attempt.runs_lift_iff.mp afterStore
      obtain rfl := Program.runs_record_iff.mp noted
      exact .granted _ known given

/-- The ways that the login can go that a profile asks for. Methods that have no login end
at once, and an identity that is taken on trust needs none. -/
inductive ProfileCourse (userAgent : Option Bytes) :
    List Step → Except (Halt LoginError) Unit → Prop
  | refused (message : String) {profile : Profile} {error : LoginError}
      (method : profile.authMethod = .none ∨ profile.authMethod = .jwt) :
      ProfileCourse userAgent [⟨.readProfile, profile⟩, Step.recorded (.log .info message)]
        (.error (.failed error))
  | trusted (message : String) {profile : Profile} (method : profile.authMethod = .local) :
      ProfileCourse userAgent [⟨.readProfile, profile⟩, Step.recorded (.log .info message)] (.ok ())
  | service (message : String) {profile : Profile} {steps : List Step}
      {result : Except (Halt LoginError) Unit} (method : profile.authMethod = .servicePrincipal)
      (course : ServiceCourse userAgent steps result) :
      ProfileCourse userAgent
        (⟨.readProfile, profile⟩ :: Step.recorded (.log .info message) :: steps) result

theorem ProfileCourse.of_runs {userAgent : Option Bytes} {steps : List Step}
    {result : Except (Halt LoginError) Unit}
    (runs : (profileLogin userAgent).run.Runs steps result) :
    ProfileCourse userAgent steps result := by
  unfold profileLogin at runs
  obtain ⟨_, profile, _, rfl, start, afterStart⟩ := Attempt.runs_lift_bind_iff.mp runs
  obtain rfl := Program.runs_step_iff.mp start
  obtain ⟨_, _, _, rfl, noted, afterNote⟩ := Attempt.runs_lift_bind_iff.mp afterStart
  obtain rfl := Program.runs_record_iff.mp noted
  cases method : profile.authMethod with
  | none =>
    rw [method] at afterNote
    obtain ⟨rfl, rfl⟩ := Program.runs_pure_iff.mp afterNote
    exact .refused _ (Or.inl method)
  | jwt =>
    rw [method] at afterNote
    obtain ⟨rfl, rfl⟩ := Program.runs_pure_iff.mp afterNote
    exact .refused _ (Or.inr method)
  | servicePrincipal =>
    rw [method] at afterNote
    exact .service _ method (.of_runs afterNote)
  | «local» =>
    rw [method] at afterNote
    obtain ⟨rfl, rfl⟩ := Program.runs_pure_iff.mp afterNote
    exact .trusted _ method

theorem tokenOf_eq_ok_iff {response : Http.Response} {token : String} :
    tokenOf response = .ok token ↔ response.status.isSuccess = true ∧
      readGrant response.body = .ok token ∧ token.isEmpty = false := by
  unfold tokenOf
  cases success : response.status.isSuccess with
  | false => exact iff_of_false nofun fun all => nomatch all.1
  | true =>
    have passed : ∀ next : Except LoginError String,
      (do if ¬ true = true then throw (.rejected response.status (Text.decodeLossy response.body))
          next) = next := fun _ => rfl
    rw [passed, bind_eq_ok_iff]
    constructor
    · rintro ⟨text, granted, given⟩
      cases empty : text.isEmpty with
      | true =>
        rw [if_pos empty] at given
        cases given
      | false =>
        rw [if_neg (ne_true_of_eq_false empty)] at given
        cases given
        exact ⟨rfl, mapError_eq_ok_iff.mp granted, empty⟩
    · rintro ⟨-, granted, filled⟩
      refine ⟨token, mapError_eq_ok_iff.mpr granted, ?_⟩
      rw [if_neg (ne_true_of_eq_false filled)]
      rfl

/-- A reply to the request for a token gives one where it is a whole answer that reports
success, and what can be read of it is not empty. What else stands in the answer does not
matter. -/
def Grants (reply : Http.Reply) (token : String) : Prop :=
  ∃ response, reply = .answered response ∧
    (200 ≤ response.status.code ∧ response.status.code < 300) ∧
    readGrant response.body = .ok token ∧ token ≠ ""

theorem tokenOfReply_eq_ok_iff {url : Url} {reply : Http.Reply} {token : String} :
    tokenOfReply url reply = .ok token ↔ Grants reply token := by
  cases reply with
  | answered response =>
    rw [tokenOfReply, mapError_eq_ok_iff, tokenOf_eq_ok_iff]
    simp [Grants, Http.Status.isSuccess]
  | _ => exact iff_of_false nofun fun ⟨_, answered, _⟩ => nomatch answered

theorem Grants.unique {reply : Http.Reply} {token other : String} (grants : Grants reply token)
    (again : Grants reply other) : token = other := by
  obtain ⟨_, rfl, -, granted, -⟩ := grants
  obtain ⟨_, same, -, regranted, -⟩ := again
  cases same
  exact Except.ok.inj (granted.symm.trans regranted)

/-- A token that is given out is not empty. -/
theorem tokenOfReply_isEmpty {url : Url} {reply : Http.Reply} {token : String}
    (given : tokenOfReply url reply = .ok token) : token.isEmpty = false := by
  obtain ⟨_, -, -, -, filled⟩ := tokenOfReply_eq_ok_iff.mp given
  exact eq_false_of_ne_true (mt String.isEmpty_iff.mp filled)

end PlatformClient.Login
