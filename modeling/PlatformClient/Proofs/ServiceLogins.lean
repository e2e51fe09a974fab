import PlatformClient.Proofs.ProfileLogins
import PlatformClient.Proofs.Surroundings

namespace PlatformClient.Login

section Faults

variable {profile : Profile} {fault : LoginError}

/-- What a profile lacks for the login of a service, in the order in which it is missed. The
list has all of it, and the login complains of the first. -/
def faults (profile : Profile) : List LoginError :=
  (match profile.baseUrl with
    | .error error => [.profile error]
    | .ok _ => []) ++
  (if profile.tenantId = "" then [.missingCredential "tenant_id" .servicePrincipal] else []) ++
  if profile.clientId = "" ∨ profile.clientSecret = "" then
    [.missingCredential "client_id/client_secret" .servicePrincipal]
  else []

/-- It is the first thing that is missed of which the login complains. -/
theorem serviceCredentials_of_fault (missed : (faults profile).head? = some fault) :
    serviceCredentials profile = .error fault := by
  cases known : profile.baseUrl with
  | error error =>
    obtain rfl : LoginError.profile error = fault := by simpa [faults, known] using missed
    rw [serviceCredentials, known]
    rfl
  | ok base =>
    have begun : (profile.baseUrl.mapError LoginError.profile : Except LoginError Url) =
        .ok base := by rw [known]; rfl
    rw [serviceCredentials, begun]
    simp only [String.isEmpty_iff, bind, Except.bind]
    by_cases tenant : profile.tenantId = ""
    · obtain rfl : .missingCredential "tenant_id" .servicePrincipal = fault := by
        simpa [faults, known, tenant] using missed
      rw [tenant]
      rfl
    · by_cases identity : profile.clientId = "" ∨ profile.clientSecret = ""
      · obtain rfl : .missingCredential "client_id/client_secret" .servicePrincipal = fault := by
          simpa [faults, known, tenant, identity] using missed
        rw [if_neg tenant, if_pos identity]
        rfl
      · simp [faults, known, tenant, identity] at missed

theorem serviceRequest_of_fault (userAgent : Option Bytes)
    (missed : (faults profile).head? = some fault) :
    serviceRequest userAgent profile = .error fault := by
  rw [serviceRequest, serviceCredentials_of_fault missed]
  rfl

end Faults

section Endings

/-- The requests that are sent in some steps, each with the reply to it. -/
def sendings (steps : List Step) : List (Http.Request × Http.Reply) :=
  steps.filterMap fun
    | ⟨.send _ request, reply⟩ => some (request, reply)
    | _ => none

/-- What can be seen of a login: what it has sent, how it has ended, and the profile that it has
left. -/
structure Ending where
  sent : List (Http.Request × Http.Reply)
  result : Except (Halt LoginError) Unit
  left : Profile

/-- How a login ends in a world. -/
def ending (login : Attempt (Halt LoginError) Unit) (world : World) : Ending where
  sent := sendings (world.steps login.run)
  result := (world.run login.run).1
  left := (world.run login.run).2.profile

/-- A login of a service stores the token that it is given, or has no other effect on the
profile that it has begun with. It is said of what can be seen from outside: the requests,
the end, and the profile that is left. -/
structure AllOrNothing (profile : Profile) (ending : Ending) : Prop where
  unsent : ∀ fault, (faults profile).head? = some fault →
    ending.sent = [] ∧ ending.result = .error (.failed fault)
  once : ending.sent.length ≤ 1
  granted : ending.result = .ok () ↔ ∃ exchange ∈ ending.sent, ∃ token, Grants exchange.2 token
  stored : ∀ exchange ∈ ending.sent, ∀ token, Grants exchange.2 token →
    ending.left = { profile with token }
  kept : ∀ halt, ending.result = .error halt → ending.left = profile

variable {userAgent : Option Bytes} {world : World} {steps : List Step}
  {result : Except (Halt LoginError) Unit}

/-- In each course of a login of a service the token is stored behind all that can fail. So
a login that has failed has stored nothing, and one that has stored a token has succeeded. -/
theorem ServiceCourse.allOrNothing (course : ServiceCourse userAgent steps result)
    (allows : world.Allows steps) :
    AllOrNothing world.profile ⟨sendings steps, result, (world.after steps).profile⟩ := by
  cases course with
  | @unsent profile error unknown =>
    obtain rfl := World.profile_of_allows allows
    refine ⟨fun fault missed => ?_, Nat.zero_le 1, ?_, fun _ inside => ?_, fun _ _ => rfl⟩
    · cases unknown.symm.trans (serviceRequest_of_fault userAgent missed)
      exact ⟨rfl, rfl⟩
    · exact iff_of_false nofun fun ⟨_, inside, _⟩ => List.not_mem_nil inside
    · exact absurd inside List.not_mem_nil
  | @ungranted profile request reply halt asked refused =>
    obtain rfl := World.profile_of_allows allows
    have sent : sendings [⟨.readProfile, world.profile⟩, ⟨.send .token request, reply⟩] =
        [(request, reply)] := rfl
    have ungranted : ∀ token, ¬ Grants reply token := fun token grants => by
      cases refused.symm.trans (tokenOfReply_eq_ok_iff.mpr grants)
    rw [sent]
    refine ⟨fun fault missed => ?_, Nat.le_refl 1, iff_of_false nofun ?_, ?_, fun _ _ => ?_⟩
    · cases asked.symm.trans (serviceRequest_of_fault userAgent missed)
    · simpa using ungranted
    · simpa using fun token grants => absurd grants (ungranted token)
    · exact World.after_profile (by simp [Effect.sparesProfile])
  | @granted message profile request reply token asked given =>
    obtain rfl := World.profile_of_allows allows
    have sent : sendings [⟨.readProfile, world.profile⟩, ⟨.send .token request, reply⟩,
        ⟨.storeToken token, ()⟩, Step.recorded (.log .info message)] = [(request, reply)] := rfl
    have before : (world.after
        [⟨.readProfile, world.profile⟩, ⟨.send .token request, reply⟩]).profile = world.profile :=
      World.after_profile (by simp [Effect.sparesProfile])
    have left : (world.after [⟨.readProfile, world.profile⟩, ⟨.send .token request, reply⟩,
        ⟨.storeToken token, ()⟩, Step.recorded (.log .info message)]).profile =
          { world.profile with token } := by
      rw [← before]
      rfl
    have grants := tokenOfReply_eq_ok_iff.mp given
    rw [sent, left]
    refine ⟨fun fault missed => ?_, Nat.le_refl 1, iff_of_true rfl ?_, ?_, nofun⟩
    · cases asked.symm.trans (serviceRequest_of_fault userAgent missed)
    · exact ⟨_, List.mem_singleton_self _, token, grants⟩
    · intro exchange inside other granted
      rw [List.mem_singleton.mp inside] at granted
      rw [grants.unique granted]

theorem allOrNothing_serviceLogin (userAgent : Option Bytes) (world : World) :
    AllOrNothing world.profile (ending (serviceLogin userAgent) world) := by
  rw [ending, ← World.after_steps]
  exact (ServiceCourse.of_runs (world.runs_steps _)).allOrNothing (world.allows_steps _)

/-- The login of a profile begins with a note, and goes on as the profile says. -/
theorem ending_profileLogin (userAgent : Option Bytes) (world : World) :
    ending (profileLogin userAgent) world =
      ending
        (match world.profile.authMethod with
        | .none => throw (.failed .notConfigured)
        | .jwt => throw (.failed (.notRefreshable .jwt))
        | .servicePrincipal => serviceLogin userAgent
        | .local => return ())
        (world.record (.log .info "Logging in")) := rfl

/-- The login of a service changes nothing but the token, and that only if it is given one.
Before it knows all that it needs, it sends nothing. The login of a profile changes the
profile in no other way: it is this login, or it ends without touching the profile. -/
theorem service_login_all_or_nothing (userAgent : Option Bytes) (world : World) :
    AllOrNothing world.profile (ending (serviceLogin userAgent) world) ∧
      match world.profile.authMethod with
      | .servicePrincipal =>
        AllOrNothing world.profile (ending (profileLogin userAgent) world) ∧
          ending (profileLogin userAgent) world =
            ending (serviceLogin userAgent) (world.record (.log .info "Logging in"))
      | .local => ending (profileLogin userAgent) world = ⟨[], .ok (), world.profile⟩
      | .none =>
        ending (profileLogin userAgent) world =
          ⟨[], .error (.failed .notConfigured), world.profile⟩
      | .jwt =>
        ending (profileLogin userAgent) world =
          ⟨[], .error (.failed (.notRefreshable .jwt)), world.profile⟩ := by
  refine ⟨allOrNothing_serviceLogin userAgent world, ?_⟩
  have noted := ending_profileLogin userAgent world
  cases method : world.profile.authMethod with
  | servicePrincipal =>
    rw [method] at noted
    rw [noted]
    exact ⟨allOrNothing_serviceLogin userAgent (world.record _), rfl⟩
  | _ =>
    rw [method] at noted
    exact noted

end Endings

end PlatformClient.Login
