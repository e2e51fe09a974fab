import PlatformClient.Proofs.CallCredentials
import PlatformClient.Proofs.TransparentRefresh

namespace PlatformClient

/-- The last of the logins and exchanges. -/
def lastMoment? (steps : List Step) : Option Moment := (proceedings steps).getLast?

/-- The profile that is read at the end, where nothing follows. -/
def lastRead? (steps : List Step) : Option Profile := steps.getLast?.bind Step.profile?

theorem lastMoment?_append {rest : List Step} (first : List Step) {moment : Moment}
    (last : lastMoment? rest = some moment) : lastMoment? (first ++ rest) = some moment := by
  unfold lastMoment? at last ⊢
  rw [proceedings_append, List.getLast?_append, last]
  rfl

theorem lastMoment?_append_of_silent {rest : List Step} (first : List Step)
    (silent : proceedings rest = []) : lastMoment? (first ++ rest) = lastMoment? first := by
  rw [lastMoment?, proceedings_append, silent, List.append_nil, lastMoment?]

theorem lastRead?_append {rest : List Step} (first : List Step) (some : rest ≠ []) :
    lastRead? (first ++ rest) = lastRead? rest := by
  rw [lastRead?, List.getLast?_append_of_ne_nil _ some, lastRead?]

theorem lastRead?_eq_none {steps : List Step} (others : ∀ step ∈ steps, step.profile? = none) :
    lastRead? steps = none :=
  Option.bind_eq_none_iff.mpr fun step last => others step (List.mem_of_getLast? last)

/-- What is done in front of steps that read no profile does not matter, if it ends with none. -/
theorem lastRead?_append_eq_none {first rest : List Step} (before : lastRead? first = none)
    (others : ∀ step ∈ rest, step.profile? = none) : lastRead? (first ++ rest) = none := by
  by_cases nothing : rest = []
  · rwa [nothing, List.append_nil]
  · rw [lastRead?_append first nothing, lastRead?_eq_none others]

theorem profile?_of_isLocal {step : Step} (here : step.effect.isLocal = true) :
    step.profile? = none := by
  obtain ⟨effect, outcome⟩ := step
  cases effect with
  | readProfile => cases here
  | _ => rfl

theorem recorded_profile? (events : List Event) :
    ∀ step ∈ events.map Step.recorded, step.profile? = none := by
  intro step member
  obtain ⟨event, -, rfl⟩ := List.mem_map.mp member
  rfl

namespace Call

variable {client : Client} {call : Call} {options : CallOptions}

/-- Once a request is sent, no profile is read behind it in its trial. -/
theorem lastRead?_sending (before : List Step) (client : Client) (options : CallOptions)
    (trial : Trial) (profile : Profile) (request : Http.Request) (reply : Http.Reply)
    (events : List Event) :
    lastRead? (before ++ (sending client options trial profile request reply ++
      events.map Step.recorded)) = none := by
  rw [← List.append_assoc]
  refine lastRead?_append_eq_none ?_ (recorded_profile? events)
  rw [sending, ← List.cons_append, ← List.append_assoc, lastRead?_append _ (List.cons_ne_nil _ _)]
  rfl

/-- How a call comes to the end of its trials, as its last steps show. The last moment and
the last reading of the profile together tell the reasons apart. -/
inductive TrialsEnd (client : Client) (call : Call) (options : CallOptions) (steps : List Step) :
    Except CallError Http.Response → Prop
  | unauthenticated {error : LoginError} {failure : CallError}
      (which : failure = .login error ∨ failure = .refresh error)
      (last : lastMoment? steps = some (.loginEnded (some (.failed error))))
      (idle : lastRead? steps = none) :
      TrialsEnd client call options steps (.error failure)
  | interrupted {why : Http.Interruption}
      (last : lastMoment? steps = some (.loginEnded (some (.interrupted why))))
      (idle : lastRead? steps = none) :
      TrialsEnd client call options steps (.error (.interrupted why call.method call.path))
  | unbuilt {profile : Profile} {error : CallError}
      (read : lastRead? steps = some profile)
      (refused : profile.requestOf call options = .error error)
      (idle : ∀ moment, lastMoment? steps = some moment → moment = .loginEnded none) :
      TrialsEnd client call options steps (.error error)
  | unanswered {request : Http.Request} {reply : Http.Reply} {error : CallError}
      (failed : responseOfReply request reply = .error error)
      (last : lastMoment? steps = some (.exchange (request.sentBy client.userAgent) reply))
      (idle : lastRead? steps = none) :
      TrialsEnd client call options steps (.error error)
  | answered {request : Http.Request} {response : Http.Response}
      {result : Except CallError Http.Response} (decided : result = verdict response)
      (last : lastMoment? steps = some (.exchange request (.answered response)))
      (second : response.status = Http.forbidden → (exchanges (proceedings steps)).length = 2)
      (idle : lastRead? steps = none) :
      TrialsEnd client call options steps result

/-- A trial that decides a call ends it. A second one has an exchange in front of it, and
that is how a refusal that ends a call is told from one that does not. -/
theorem LastTrial.ends {trial : Trial} {steps : List Step}
    {result : Except CallError Http.Response}
    (course : LastTrial client call options trial steps result) (before : List Step)
    (loggedIn : ∀ moment, lastMoment? before = some moment → moment = .loginEnded none)
    (again : trial = .afterRefresh → (exchanges (proceedings before)).length = 1) :
    TrialsEnd client call options (before ++ steps) result := by
  cases course with
  | failed exchange =>
    cases exchange with
    | @unbuilt profile error refused =>
      refine .unbuilt (lastRead?_append before (List.cons_ne_nil _ _)) refused ?_
      rwa [lastMoment?_append_of_silent before rfl]
    | @unanswered profile request reply error built failed =>
      refine .unanswered failed (lastMoment?_append before ?_) (lastRead?_sending ..)
      simp [lastMoment?]
  | @settled profile request response built final =>
    have last : lastMoment? (sending client options trial profile request (.answered response) ++
        (closing options response.status).map Step.recorded) =
          some (.exchange (request.sentBy client.userAgent) (.answered response)) := by
      simp [lastMoment?]
    refine .answered rfl (lastMoment?_append before last) (fun forbidden => ?_)
      (lastRead?_sending ..)
    have second : trial = .afterRefresh := by
      cases trial with
      | first => exact absurd ⟨rfl, forbidden⟩ final
      | afterRefresh => rfl
    rw [proceedings_append, exchanges_append, List.length_append, again second]
    simp [exchanges]

theorem LoginCourse.lastRead? {steps : List Step} {result : Except (Halt LoginError) Unit}
    (course : LoginCourse client steps result) (before : List Step) :
    lastRead? (before ++ steps) = none := by
  cases course with
  | @ended inner _ runs =>
    rw [← List.cons_append, ← List.append_assoc, lastRead?_append _ (List.cons_ne_nil _ _)]
    rfl

theorem LoginCourse.lastMoment? {steps : List Step} {result : Except (Halt LoginError) Unit}
    (course : LoginCourse client steps result) (before : List Step) :
    lastMoment? (before ++ steps) = some (.loginEnded (LoginProcedure.halt? result)) := by
  refine lastMoment?_append before ?_
  rw [PlatformClient.lastMoment?, course.proceedings_eq]
  rfl

/-- A login that does not succeed ends a call. -/
theorem LoginCourse.ends {steps : List Step} {halt : Halt LoginError}
    (course : LoginCourse client steps (.error halt)) {failure : LoginError → CallError}
    (which : failure = .login ∨ failure = .refresh) (before : List Step) :
    TrialsEnd client call options (before ++ steps) (.error (ofLogin call failure halt)) := by
  have last := course.lastMoment? before
  have idle := course.lastRead? before
  cases halt with
  | failed error =>
    refine .unauthenticated ?_ last idle
    exact which.imp (congrFun · error) (congrFun · error)
  | interrupted why => exact .interrupted last idle

theorem CredentialCourse.lastMoment? {steps : List Step} (message : String)
    (course : CredentialCourse client steps (.ok ())) (moment : Moment)
    (last : lastMoment? (Step.recorded (.log .info message) :: steps) = some moment) :
    moment = .loginEnded none := by
  cases course with
  | cached token => cases last
  | @obtained profile reason steps _ missing login =>
    have ended := login.lastMoment? [Step.recorded (.log .info message), ⟨.readProfile, profile⟩,
      Step.recorded (.log .info reason)]
    exact Option.some.inj (last.symm.trans ended)

theorem ResponseCourse.ends {steps : List Step} {result : Except CallError Http.Response}
    (message : String) (course : ResponseCourse client call options steps result) :
    TrialsEnd client call options (Step.recorded (.log .info message) :: steps) result := by
  cases course with
  | unauthenticated credential =>
    cases credential with
    | @obtained profile reason steps _ missing login =>
      exact login.ends (Or.inl rfl) [_, ⟨.readProfile, profile⟩, Step.recorded (.log .info reason)]
  | once credential trial =>
    rw [← List.cons_append]
    exact trial.ends _ (credential.lastMoment? message) nofun
  | @unrefreshed warning before refused steps request response halt credential first login =>
    have ended : TrialsEnd client call options _ _ := login.ends (Or.inr rfl)
      (Step.recorded (.log .info message) :: (before ++ (refused ++
        [Step.recorded (.log .warning warning)])))
    simpa using ended
  | @twice warning retry before refused login steps request response result credential first refresh
      trial =>
    -- In front of the second trial are one exchange and, last of all, a login with success.
    let front := Step.recorded (.log .info message) :: (before ++ (refused ++
      Step.recorded (.log .warning warning) :: (login ++ [Step.recorded (.log .info retry)])))
    have sent : (exchanges (proceedings front)).length = 1 := by
      simp only [front, proceedings_log, proceedings_append, exchanges_append, credential.silent,
        first.proceedings_eq, refresh.proceedings_eq]
      rfl
    have loggedIn (moment : Moment) (last : PlatformClient.lastMoment? front = some moment) :
        moment = .loginEnded none := by
      have order : proceedings front = proceedings (before ++ refused) ++
          [.loginBegun, .loginEnded none] := by
        simp only [front, proceedings_log, proceedings_append, refresh.proceedings_eq,
          List.append_assoc]
        rfl
      rw [PlatformClient.lastMoment?, order, List.getLast?_append_of_ne_nil _ (List.cons_ne_nil _ _)] at last
      exact (Option.some.inj last).symm
    have ended := trial.ends front loggedIn fun _ => sent
    simpa [front] using ended

theorem verdict_eq_ok {response received : Http.Response}
    (wanted : .ok received = verdict response) :
    accepts response.status = true ∧ received = response := by
  unfold verdict at wanted
  split at wanted
  · exact ⟨‹_›, Except.ok.inj wanted⟩
  · cases wanted

/-- A call fails as its trials end, or it comes to what is made of a response that is
wanted. What is made of a response reads no profile and exchanges nothing, so that the last
steps are those of the trials. -/
theorem Course.ends {steps : List Step} {outcome : CallOptions × Except CallError Payload}
    (course : Course client call options steps outcome) :
    (∃ error, outcome.2 = .error error ∧ TrialsEnd client call options steps (.error error)) ∨
    ∃ request response handling,
      lastMoment? steps = some (.exchange request (.answered response)) ∧
      lastRead? steps = none ∧ accepts response.status = true ∧
      (Payload.ofResponse call.method options.headers response).run.Runs handling outcome.2 := by
  obtain ⟨message, first, handling, result, rfl, response, handled⟩ := course.parts
  have ended := response.ends message
  have silent := finishing_proceedings handled
  have unread : ∀ step ∈ handling, step.profile? = none := fun step member =>
    profile?_of_isLocal ((finishing_isLocal call options result).steps handled step member)
  cases result with
  | error error =>
    obtain ⟨rfl, rfl⟩ := Program.runs_pure_iff.mp handled
    rw [List.append_nil]
    exact Or.inl ⟨error, rfl, ended⟩
  | ok received =>
    obtain ⟨early, payload, late, rfl, payload_runs, done⟩ := Program.runs_bind_iff.mp handled
    obtain ⟨rfl, rfl⟩ := Program.runs_pure_iff.mp done
    cases ended with
    | @answered request response _ decided last second idle =>
      obtain ⟨accepted, rfl⟩ := verdict_eq_ok decided
      rw [← List.cons_append, lastMoment?_append_of_silent _ silent]
      exact Or.inr ⟨request, received, early, last, lastRead?_append_eq_none idle unread, accepted,
        payload_runs⟩

end Call

end PlatformClient
