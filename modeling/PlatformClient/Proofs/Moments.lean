import PlatformClient.Proofs.Course
import PlatformClient.Proofs.Surroundings

namespace PlatformClient

/-- What makes up the course of a call for those who watch it. -/
inductive Moment where
  | loginBegun
  | loginEnded (halt : Option (Halt LoginError))
  | exchange (request : Http.Request) (reply : Http.Reply)
  /-- The indicator of progress is told something. -/
  | indication (event : ProgressEvent)
  deriving DecidableEq, Repr

namespace Moment

def isExchange : Moment → Bool
  | .exchange .. => true
  | _ => false

def isLogin : Moment → Bool
  | .loginBegun => true
  | .loginEnded _ => true
  | _ => false

def isIndication : Moment → Bool
  | .indication _ => true
  | _ => false

end Moment

/-- A response, received in full, that refuses the token. -/
def Http.Reply.isRefusal : Http.Reply → Bool
  | .answered response => response.status = Http.forbidden
  | _ => false

def Step.moment? : Step → Option Moment
  | ⟨.record .loginBegun, _⟩ => some .loginBegun
  | ⟨.record (.loginEnded halt), _⟩ => some (.loginEnded halt)
  | ⟨.send .call request, reply⟩ => some (.exchange request reply)
  | ⟨.record (.progress event), _⟩ => some (.indication event)
  | _ => none

def Step.profile? : Step → Option Profile
  | ⟨.readProfile, profile⟩ => some profile
  | _ => none

/-- The profile as a call first finds it. -/
def foundProfile? (steps : List Step) : Option Profile := steps.findSome? Step.profile?

def moments (steps : List Step) : List Moment := steps.filterMap Step.moment?

/-- The logins and exchanges of a call, in order. -/
def proceedings (steps : List Step) : List Moment := (moments steps).filter (!·.isIndication)

/-- The exchanges among some moments. -/
def exchanges (moments : List Moment) : List (Http.Request × Http.Reply) :=
  moments.filterMap fun
    | .exchange request reply => some (request, reply)
    | _ => none

@[simp]
theorem moments_nil : moments [] = [] := rfl

@[simp]
theorem moments_append (first rest : List Step) :
    moments (first ++ rest) = moments first ++ moments rest := List.filterMap_append

@[simp]
theorem proceedings_append (first rest : List Step) :
    proceedings (first ++ rest) = proceedings first ++ proceedings rest := by
  simp [proceedings]

@[simp]
theorem exchanges_append (first rest : List Moment) :
    exchanges (first ++ rest) = exchanges first ++ exchanges rest := List.filterMap_append

theorem exchanges_eq_nil {order : List Moment} (none : order.any Moment.isExchange = false) :
    exchanges order = [] := by
  refine List.filterMap_eq_nil_iff.mpr fun moment member => ?_
  have other := List.any_eq_false.mp none moment member
  cases moment with
  | exchange request reply => exact absurd rfl other
  | _ => rfl

@[simp]
theorem moments_log (level : LogLevel) (message : String) (rest : List Step) :
    moments (Step.recorded (.log level message) :: rest) = moments rest := rfl

@[simp]
theorem proceedings_readProfile (profile : Profile) (rest : List Step) :
    proceedings (⟨.readProfile, profile⟩ :: rest) = proceedings rest := rfl

@[simp]
theorem proceedings_log (level : LogLevel) (message : String) (rest : List Step) :
    proceedings (Step.recorded (.log level message) :: rest) = proceedings rest := rfl

theorem foundProfile?_log (level : LogLevel) (message : String) (rest : List Step) :
    foundProfile? (Step.recorded (.log level message) :: rest) = foundProfile? rest := rfl

/-- Steps that leave the course of a call to others are no moments of it. Files are read and
written, and notes made, without anyone at the call seeing it. -/
theorem moments_of_incidental {steps : List Step}
    (incidental : ∀ step ∈ steps, step.effect.isIncidental = true) : moments steps = [] := by
  refine List.filterMap_eq_nil_iff.mpr fun step member => ?_
  have kind := incidental step member
  obtain ⟨effect, outcome⟩ := step
  cases effect with
  | send purpose request =>
    cases purpose with
    | call => cases kind
    | token => rfl
  | record event =>
    cases event with
    | log level message => rfl
    | _ => cases kind
  | _ => rfl

theorem moments_of_local {steps : List Step}
    (here : ∀ step ∈ steps, step.effect.isLocal = true) : moments steps = [] :=
  moments_of_incidental fun step member => Effect.isIncidental_of_isLocal (here step member)

theorem proceedings_of_local {steps : List Step}
    (here : ∀ step ∈ steps, step.effect.isLocal = true) : proceedings steps = [] := by
  rw [proceedings, moments_of_local here]
  rfl

namespace Call

variable {client : Client} {call : Call} {options : CallOptions}

/-- What is seen of an event for the indicator. -/
def indicated (options : CallOptions) (event : ProgressEvent) : List Moment :=
  if options.quiet then [] else [.indication event]

@[simp]
theorem filter_indicated (options : CallOptions) (event : ProgressEvent) :
    (indicated options event).filter (!·.isIndication) = [] := by
  unfold indicated
  split <;> rfl

@[simp]
theorem moments_indication (options : CallOptions) (event : ProgressEvent) :
    moments ((indication options event).map Step.recorded) = indicated options event := by
  unfold indication indicated
  split <;> rfl

@[simp]
theorem moments_closing (options : CallOptions) (status : Http.Status) :
    moments ((closing options status).map Step.recorded) =
      indicated options (.stop (accepts status)) := by
  rw [closing, List.map_append, moments_append, moments_indication, failureNote]
  cases accepts status <;> cases options.expected.contains status <;> simp

@[simp]
theorem moments_sending (client : Client) (options : CallOptions) (trial : Trial)
    (profile : Profile) (request : Http.Request) (reply : Http.Reply) :
    moments (sending client options trial profile request reply) =
      indicated options (.start (label trial (request.sentBy client.userAgent))) ++
        [.exchange (request.sentBy client.userAgent) reply] := by
  have commands : moments ((client.showing request).map Step.recorded) = [] := by
    unfold Client.showing
    cases client.commands <;> rfl
  have first : moments [⟨.readProfile, profile⟩] = [] := rfl
  have last : moments [⟨.send .call (request.sentBy client.userAgent), reply⟩] =
      [.exchange (request.sentBy client.userAgent) reply] := rfl
  rw [sending, ← List.singleton_append, opening]
  simp only [moments_append, first, last, List.map_append, commands, moments_indication,
    List.nil_append]
  rfl

@[simp]
theorem proceedings_sending (client : Client) (options : CallOptions) (trial : Trial)
    (profile : Profile) (request : Http.Request) (reply : Http.Reply) :
    proceedings (sending client options trial profile request reply) =
      [.exchange (request.sentBy client.userAgent) reply] := by
  rw [proceedings, moments_sending, List.filter_append, filter_indicated]
  rfl

@[simp]
theorem proceedings_indication (options : CallOptions) (event : ProgressEvent) :
    proceedings ((indication options event).map Step.recorded) = [] := by
  simp [proceedings]

@[simp]
theorem proceedings_closing (options : CallOptions) (status : Http.Status) :
    proceedings ((closing options status).map Step.recorded) = [] := by
  simp [proceedings]

theorem LoginCourse.moments_eq {steps : List Step} {result : Except (Halt LoginError) Unit}
    (course : LoginCourse client steps result) :
    moments steps = [.loginBegun, .loginEnded (LoginProcedure.halt? result)] := by
  cases course with
  | @ended inner _ runs =>
    have silent := moments_of_incidental ((client.login.incidental client.userAgent).steps runs)
    change .loginBegun :: moments (inner ++ _) = _
    rw [moments_append, silent]
    rfl

theorem LoginCourse.proceedings_eq {steps : List Step} {result : Except (Halt LoginError) Unit}
    (course : LoginCourse client steps result) :
    proceedings steps = [.loginBegun, .loginEnded (LoginProcedure.halt? result)] := by
  rw [proceedings, course.moments_eq]
  rfl

/-- The login in front of the first exchange, which there is exactly where no token has been
found. One that fails is none of these, as no exchange comes behind it. -/
inductive FirstLogin : (token : Bool) → List Moment → Prop
  | cached : FirstLogin true []
  | obtained : FirstLogin false [.loginBegun, .loginEnded none]

/-- The exchange that decides a call, unless no request can be made. A first trial decides
it with any reply but a refusal, and a second one with any at all. -/
inductive LastExchange (trial : Trial) : List Moment → Except CallError Http.Response → Prop
  | unsent (error : CallError) : LastExchange trial [] (.error error)
  | sent {request : Http.Request} {reply : Http.Reply} {result : Except CallError Http.Response}
      (final : trial = .first → reply.isRefusal = false)
      (decided : ∀ response, reply = .answered response → result = verdict response) :
      LastExchange trial [.exchange request reply] result

/-- The logins and exchanges that a call can consist of, by whether it finds a token, up to
its response. Each course of a call leaves one of these four orders when what is noted and
shown is left out. -/
inductive Protocol (token : Bool) : List Moment → Except CallError Http.Response → Prop
  | unauthenticated (halt : Halt LoginError) (error : CallError) (missing : token = false) :
      Protocol token [.loginBegun, .loginEnded (some halt)] (.error error)
  | once {login last : List Moment} {result : Except CallError Http.Response}
      (credential : FirstLogin token login) (trial : LastExchange .first last result) :
      Protocol token (login ++ last) result
  | unrefreshed {login : List Moment} (request : Http.Request) {response : Http.Response}
      (halt : Halt LoginError) (error : CallError) (credential : FirstLogin token login)
      (refused : response.status = Http.forbidden) :
      Protocol token (login ++ [.exchange request (.answered response), .loginBegun,
        .loginEnded (some halt)]) (.error error)
  | twice {login last : List Moment} (request : Http.Request) {response : Http.Response}
      {result : Except CallError Http.Response} (credential : FirstLogin token login)
      (refused : response.status = Http.forbidden)
      (trial : LastExchange .afterRefresh last result) :
      Protocol token (login ++ .exchange request (.answered response) :: .loginBegun ::
        .loginEnded none :: last) result

theorem CredentialCourse.found {steps : List Step} {result : Except (Halt LoginError) Unit}
    (course : CredentialCourse client steps result) :
    ∃ profile, (∀ rest, foundProfile? (steps ++ rest) = some profile) ∧
      ((∃ halt, result = .error halt ∧ profile.hasToken = false ∧
          proceedings steps = [.loginBegun, .loginEnded (some halt)]) ∨
        (result = .ok () ∧ FirstLogin profile.hasToken (proceedings steps))) := by
  cases course with
  | @cached profile token =>
    refine ⟨profile, fun rest => rfl, Or.inr ⟨rfl, ?_⟩⟩
    rw [token]
    exact .cached
  | @obtained profile message steps _ missing login =>
    refine ⟨profile, fun rest => rfl, ?_⟩
    cases result with
    | error halt =>
      exact Or.inl ⟨halt, rfl, missing, by simp [login.proceedings_eq, LoginProcedure.halt?]⟩
    | ok value =>
      refine Or.inr ⟨rfl, ?_⟩
      simpa [login.proceedings_eq, LoginProcedure.halt?, missing] using FirstLogin.obtained

theorem LastTrial.lastExchange {trial : Trial} {steps : List Step}
    {result : Except CallError Http.Response}
    (course : LastTrial client call options trial steps result) :
    LastExchange trial (proceedings steps) result := by
  cases course with
  | failed exchange =>
    cases exchange with
    | unbuilt refused => exact .unsent _
    | @unanswered profile request reply error built failed =>
      simp only [proceedings_append, proceedings_sending, proceedings_indication, List.append_nil]
      refine .sent (fun _ => ?_) fun response same => ?_
      · cases reply with
        | answered response => cases failed
        | _ => rfl
      · subst same
        cases failed
  | @settled profile request response built final =>
    simp only [proceedings_append, proceedings_sending, proceedings_closing, List.append_nil]
    refine .sent (fun first => ?_) fun given same => ?_
    · simpa [Http.Reply.isRefusal] using fun refused => final ⟨first, refused⟩
    · cases same
      rfl

theorem CredentialCourse.found_ok {steps : List Step}
    (course : CredentialCourse client steps (.ok ())) :
    ∃ profile, (∀ rest, foundProfile? (steps ++ rest) = some profile) ∧
      FirstLogin profile.hasToken (proceedings steps) := by
  obtain ⟨profile, found, ⟨halt, failed, -⟩ | ⟨-, login⟩⟩ := course.found
  · cases failed
  · exact ⟨profile, found, login⟩

theorem RefusedTrial.proceedings_eq {steps : List Step} {request : Http.Request}
    {response : Http.Response} (course : RefusedTrial client call options steps request response) :
    proceedings steps =
      [.exchange (request.sentBy client.userAgent) (.answered response)] := by
  cases course with
  | refused built status => simp

/-- Every way that a call can go follows the protocol. The profile that decides about the
first login is the one that is read first, also where a login puts another token into it
afterwards. -/
theorem ResponseCourse.protocol {steps : List Step} {result : Except CallError Http.Response}
    (course : ResponseCourse client call options steps result) :
    ∃ profile, (∀ rest, foundProfile? (steps ++ rest) = some profile) ∧
      Protocol profile.hasToken (proceedings steps) result := by
  cases course with
  | unauthenticated credential =>
    obtain ⟨profile, found, ⟨halt, failed, missing, shape⟩ | ⟨ok, -⟩⟩ := credential.found
    · rw [shape]
      exact ⟨profile, found, .unauthenticated halt _ missing⟩
    · cases ok
  | once credential trial =>
    obtain ⟨profile, found, login⟩ := credential.found_ok
    refine ⟨profile, fun rest => by rw [List.append_assoc]; exact found _, ?_⟩
    rw [proceedings_append]
    exact .once login trial.lastExchange
  | @unrefreshed message before refused steps request response halt credential first login =>
    obtain ⟨profile, found, initial⟩ := credential.found_ok
    refine ⟨profile, fun rest => by rw [List.append_assoc]; exact found _, ?_⟩
    have status : response.status = Http.forbidden := by cases first; assumption
    simp only [proceedings_append, proceedings_log, first.proceedings_eq, login.proceedings_eq]
    exact .unrefreshed _ halt _ initial status
  | @twice message retry before refused login steps request response result credential first refresh
      trial =>
    obtain ⟨profile, found, initial⟩ := credential.found_ok
    refine ⟨profile, fun rest => by rw [List.append_assoc]; exact found _, ?_⟩
    have status : response.status = Http.forbidden := by cases first; assumption
    simp only [proceedings_append, proceedings_log, first.proceedings_eq, refresh.proceedings_eq]
    exact .twice _ initial status trial.lastExchange

theorem finishing_isLocal (call : Call) (options : CallOptions)
    (result : Except CallError Http.Response) :
    (finishing call options result).Uses (·.isLocal) := by
  cases result with
  | error error => exact .done _
  | ok received => exact (Payload.ofResponse_isLocal ..).bind fun payload => .done _

theorem finishing_silent {steps : List Step} {result : Except CallError Http.Response}
    {outcome : CallOptions × Except CallError Payload}
    (handled : (finishing call options result).Runs steps outcome) : moments steps = [] :=
  moments_of_local ((finishing_isLocal call options result).steps handled)

theorem finishing_proceedings {steps : List Step} {result : Except CallError Http.Response}
    {outcome : CallOptions × Except CallError Payload}
    (handled : (finishing call options result).Runs steps outcome) : proceedings steps = [] := by
  rw [proceedings, finishing_silent handled]
  rfl

theorem finishing_error {steps : List Step} {error : CallError}
    {outcome : CallOptions × Except CallError Payload}
    (handled : (finishing call options (.error error)).Runs steps outcome) :
    outcome = (options, .error error) := (Program.runs_pure_iff.mp handled).2

/-- The protocol of a whole call. What is done behind its response adds nothing to it, since
it takes steps on the files only, and a call without response does nothing more. -/
theorem Course.protocol {steps : List Step} {outcome : CallOptions × Except CallError Payload}
    (course : Course client call options steps outcome) :
    ∃ profile result, foundProfile? steps = some profile ∧
      Protocol profile.hasToken (proceedings steps) result ∧
      ∀ error, result = .error error → outcome = (options, .error error) := by
  cases course with
  | @whole message steps handling result outcome response handled =>
    obtain ⟨profile, found, protocol⟩ := response.protocol
    refine ⟨profile, result, ?_, ?_, fun error same => ?_⟩
    · rw [foundProfile?_log, found]
    · rwa [proceedings_log, proceedings_append, finishing_proceedings handled, List.append_nil]
    · subst same
      exact finishing_error handled

end Call

end PlatformClient
