import PlatformClient.Call.Execution
import PlatformClient.Proofs.Runs

namespace PlatformClient

/-- The request that a call comes to with a profile. -/
def Profile.requestOf (profile : Profile) (call : Call) (options : CallOptions) :
    Except CallError Http.Request := do
  let context ← profile.context.mapError .profile
  context.request call.method call.path call.body options.headers

/-- What is shown of a request before it is sent. -/
def Client.showing (client : Client) (request : Http.Request) : List Event :=
  match client.commands with
  | .off => []
  | .handed => [.command (Http.Curl.command request)]
  | .logged => [.command (Http.Curl.command request), .log .info "curl command equivalent"]

theorem Client.showCommand_runs_iff {client : Client} {request : Http.Request} {steps : List Step} :
    (client.showCommand request).Runs steps () ↔
      steps = (client.showing request).map Step.recorded := by
  unfold Client.showCommand Client.showing
  cases client.commands with
  | off => simp [Program.runs_pure_iff]
  | handed => simp [Program.runs_record_iff]
  | logged =>
    simp only [Program.log, Program.runs_bind_iff, Program.runs_record_iff, List.map_cons,
      List.map_nil]
    constructor
    · rintro ⟨_, _, _, rfl, rfl, rfl⟩
      rfl
    · rintro rfl
      exact ⟨_, (), _, rfl, rfl, rfl⟩

namespace Call

/-- What the indicator of progress is told, if it is told anything. -/
def indication (options : CallOptions) (event : ProgressEvent) : List Event :=
  if options.quiet then [] else [.progress event]

theorem indicate_runs_iff {options : CallOptions} {event : ProgressEvent} {steps : List Step} :
    (indicate options event).Runs steps () ↔
      steps = (indication options event).map Step.recorded := by
  unfold indicate indication
  cases options.quiet with
  | true => simp [Program.runs_pure_iff]
  | false => simp [Program.runs_record_iff]

/-- What becomes known before the request of a trial is sent. -/
def opening (client : Client) (options : CallOptions) (trial : Trial) (request : Http.Request) :
    List Event :=
  client.showing request ++ indication options (.start (label trial request))

/-- The steps of a trial up to the reply. -/
def sending (client : Client) (options : CallOptions) (trial : Trial) (profile : Profile)
    (request : Http.Request) (reply : Http.Reply) : List Step :=
  ⟨.readProfile, profile⟩ :: ((opening client options trial request).map Step.recorded ++
    [⟨.send .call (request.sentBy client.userAgent), reply⟩])

theorem context_runs {steps : List Step} {result : Except CallError CallContext}
    (runs : Client.context.run.Runs steps result) :
    ∃ profile, steps = [⟨.readProfile, profile⟩] ∧ result = profile.context.mapError .profile := by
  obtain ⟨first, profile, rest, rfl, start, later⟩ := Attempt.runs_lift_bind_iff.mp runs
  obtain rfl := Program.runs_step_iff.mp start
  obtain ⟨rfl, rfl⟩ := Attempt.runs_result_iff.mp later
  exact ⟨profile, rfl, rfl⟩

/-- The ways that one exchange of a call can go. The indicator is left running
exactly behind a whole response. -/
inductive ExchangeCourse (client : Client) (call : Call) (options : CallOptions) (trial : Trial) :
    List Step → Except CallError Http.Response → Prop
  | unbuilt {profile : Profile} {error : CallError}
      (refused : profile.requestOf call options = .error error) :
      ExchangeCourse client call options trial [⟨.readProfile, profile⟩] (.error error)
  | unanswered {profile : Profile} {request : Http.Request} {reply : Http.Reply} {error : CallError}
      (built : profile.requestOf call options = .ok request)
      (failed : responseOfReply request reply = .error error) :
      ExchangeCourse client call options trial
        (sending client options trial profile request reply ++
          (indication options (.stop false)).map Step.recorded) (.error error)
  | answered {profile : Profile} {request : Http.Request} {response : Http.Response}
      (built : profile.requestOf call options = .ok request) :
      ExchangeCourse client call options trial
        (sending client options trial profile request (.answered response)) (.ok response)

theorem responseOfReply_eq_ok {request : Http.Request} {reply : Http.Reply}
    {response : Http.Response} (ok : responseOfReply request reply = .ok response) :
    reply = .answered response := by
  cases reply with
  | answered given =>
    cases ok
    rfl
  | _ => cases ok

/-- An exchange reads the profile and then fails to build its request, or sends it. Whatever
becomes of the reply, nothing else is sent in between. -/
theorem ExchangeCourse.of_runs {client : Client} {call : Call} {options : CallOptions}
    {trial : Trial} {steps : List Step} {result : Except CallError Http.Response}
    (runs : (exchange client call options trial).run.Runs steps result) :
    ExchangeCourse client call options trial steps result := by
  unfold exchange at runs
  rcases Attempt.runs_bind_iff.mp runs with ⟨error, context, rfl⟩ |
    ⟨_, context, _, rfl, start, afterContext⟩
  · obtain ⟨profile, rfl, failed⟩ := context_runs context
    exact .unbuilt (by rw [Profile.requestOf, ← failed]; rfl)
  obtain ⟨profile, rfl, known⟩ := context_runs start
  have requested : profile.requestOf call options =
      context.request call.method call.path call.body options.headers := by
    rw [Profile.requestOf, ← known]
    rfl
  rcases Attempt.runs_bind_iff.mp afterContext with ⟨error, build, rfl⟩ |
    ⟨_, request, _, rfl, build, afterBuild⟩
  · obtain ⟨rfl, failed⟩ := Attempt.runs_result_iff.mp build
    exact .unbuilt (requested.trans failed.symm)
  obtain ⟨rfl, built⟩ := Attempt.runs_result_iff.mp build
  rw [← built] at requested
  obtain ⟨_, _, _, rfl, shown, afterShown⟩ := Attempt.runs_lift_bind_iff.mp afterBuild
  obtain rfl := Client.showCommand_runs_iff.mp shown
  obtain ⟨_, _, _, rfl, started, afterStart⟩ := Attempt.runs_lift_bind_iff.mp afterShown
  obtain rfl := indicate_runs_iff.mp started
  obtain ⟨_, reply, _, rfl, answer, afterReply⟩ := Attempt.runs_lift_bind_iff.mp afterStart
  obtain rfl := Program.runs_step_iff.mp answer
  cases outcome : responseOfReply request reply with
  | ok response =>
    rw [outcome] at afterReply
    obtain ⟨rfl, rfl⟩ := Attempt.runs_result_iff.mp afterReply
    obtain rfl := responseOfReply_eq_ok outcome
    have course : ExchangeCourse client call options trial _ (.ok response) := .answered requested
    simpa [sending, opening] using course
  | error error =>
    rw [outcome] at afterReply
    obtain ⟨_, _, _, rfl, stopped, afterStop⟩ := Attempt.runs_lift_bind_iff.mp afterReply
    obtain rfl := indicate_runs_iff.mp stopped
    obtain ⟨rfl, rfl⟩ := Attempt.runs_result_iff.mp afterStop
    have course : ExchangeCourse client call options trial _ _ := .unanswered requested outcome
    simpa [sending, opening, ProgressEnding.event] using course

/-- The steps of a login from its begin to its end. -/
inductive LoginCourse (client : Client) : List Step → Except (Halt LoginError) Unit → Prop
  | ended {steps : List Step} {result : Except (Halt LoginError) Unit}
      (runs : (client.login.program client.userAgent).run.Runs steps result) :
      LoginCourse client (Step.recorded .loginBegun ::
        (steps ++ [Step.recorded (.loginEnded (LoginProcedure.halt? result))])) result

theorem LoginCourse.of_runs {client : Client} {steps : List Step}
    {result : Except (Halt LoginError) Unit}
    (runs : (client.login.run client.userAgent).run.Runs steps result) :
    LoginCourse client steps result := by
  change (Program.record .loginBegun >>= fun _ => _).Runs steps result at runs
  obtain ⟨_, _, _, rfl, begun, afterBegin⟩ := Program.runs_bind_iff.mp runs
  obtain rfl := Program.runs_record_iff.mp begun
  obtain ⟨inner, _, _, rfl, login, afterLogin⟩ := Program.runs_bind_iff.mp afterBegin
  obtain ⟨_, _, _, rfl, ended, done⟩ := Program.runs_bind_iff.mp afterLogin
  obtain rfl := Program.runs_record_iff.mp ended
  obtain ⟨rfl, rfl⟩ := Program.runs_pure_iff.mp done
  simpa using LoginCourse.ended login

/-- The ways to a token in front of a call: it is there, or there is a login. The profile is
read once, and that reading alone decides which of them is taken. -/
inductive CredentialCourse (client : Client) : List Step → Except (Halt LoginError) Unit → Prop
  | cached {profile : Profile} (token : profile.hasToken = true) :
      CredentialCourse client [⟨.readProfile, profile⟩] (.ok ())
  | obtained {profile : Profile} (message : String) {steps : List Step}
      {result : Except (Halt LoginError) Unit} (missing : profile.hasToken = false)
      (login : LoginCourse client steps result) :
      CredentialCourse client
        (⟨.readProfile, profile⟩ :: Step.recorded (.log .info message) :: steps) result

/-- What the end of a login means for the call that needed it. -/
def ofLogin (call : Call) (failure : LoginError → CallError) (halt : Halt LoginError) : CallError :=
  errorOfHalt call.method call.path (Client.haltOfLogin failure halt)

theorem CredentialCourse.of_runs {client : Client} {call : Call} {steps : List Step}
    {result : Except CallError Unit}
    (runs : (within call.method call.path client.ensureToken).run.Runs steps result) :
    ∃ ending, CredentialCourse client steps ending ∧
      result = ending.mapError (ofLogin call .login) := by
  obtain ⟨checked, check, rfl⟩ := Attempt.runs_adapt_iff.mp runs
  unfold Client.ensureToken at check
  obtain ⟨_, profile, _, rfl, start, afterStart⟩ := Attempt.runs_lift_bind_iff.mp check
  obtain rfl := Program.runs_step_iff.mp start
  cases token : profile.hasToken with
  | true =>
    simp only [token, if_true] at afterStart
    obtain ⟨rfl, rfl⟩ := Attempt.runs_result_iff.mp afterStart
    exact ⟨.ok (), .cached token, rfl⟩
  | false =>
    simp only [token, Bool.false_eq_true, if_false] at afterStart
    obtain ⟨_, _, _, rfl, logged, afterLog⟩ := Attempt.runs_lift_bind_iff.mp afterStart
    obtain rfl := Program.runs_record_iff.mp logged
    obtain ⟨ending, login, rfl⟩ := Attempt.runs_adapt_iff.mp afterLog
    refine ⟨ending, .obtained _ token (.of_runs login), ?_⟩
    cases ending <;> rfl

/-- The statuses of the responses that a call wants. -/
def accepts (status : Http.Status) : Bool := status.isSuccess || status = Http.seeOther

/-- What a response comes to that ends a call. -/
def verdict (response : Http.Response) : Except CallError Http.Response :=
  if accepts response.status then .ok response
  else .error (.status (.classify response.status response.body))

/-- What is noted of a response that is a failure. -/
def failureNote (options : CallOptions) (status : Http.Status) : Event :=
  if options.expected.contains status then
    .log .info "Platform API call failed with expected error"
  else .log .error "Platform API call failed"

/-- What becomes known behind a response that ends a call. -/
def closing (options : CallOptions) (status : Http.Status) : List Event :=
  indication options (.stop (accepts status)) ++
    if accepts status then [] else [failureNote options status]

theorem transition_succeed_iff {trial : Trial} {status : Http.Status} :
    Transition.of trial status = .succeed ↔ accepts status = true := by
  unfold Transition.of accepts
  split <;> simp_all
  split <;> simp

theorem transition_fail_iff {trial : Trial} {status : Http.Status} :
    Transition.of trial status = .fail ↔
      accepts status = false ∧ ¬ (trial = .first ∧ status = Http.forbidden) := by
  unfold Transition.of accepts
  split
  · rename_i accepted
    refine ⟨nofun, fun refused => ?_⟩
    simp_all
  · split <;> simp_all

theorem transition_retry_iff {trial : Trial} {status : Http.Status} :
    Transition.of trial status = .refreshAndRetry ↔ trial = .first ∧ status = Http.forbidden := by
  unfold Transition.of
  split
  · rename_i accepted
    refine ⟨nofun, ?_⟩
    rintro ⟨-, rfl⟩
    exact absurd accepted (by decide)
  · split <;> simp_all

theorem accept_runs {options : CallOptions} {response : Http.Response} {steps : List Step}
    {result : Except CallError Http.Response} (accepted : accepts response.status = true)
    (runs : (do stopIndicator options (.finished true); return response :
      Attempt CallError Http.Response).run.Runs steps result) :
    steps = (closing options response.status).map Step.recorded ∧ result = verdict response := by
  obtain ⟨_, _, _, rfl, stopped, afterStop⟩ := Attempt.runs_lift_bind_iff.mp runs
  obtain rfl := indicate_runs_iff.mp stopped
  obtain ⟨rfl, rfl⟩ := Attempt.runs_result_iff.mp afterStop
  simp [closing, verdict, accepted, ProgressEnding.event]

theorem reject_runs {options : CallOptions} {response : Http.Response} {steps : List Step}
    {result : Except CallError Http.Response} (refused : accepts response.status = false)
    (runs : (reject options response).run.Runs steps result) :
    steps = (closing options response.status).map Step.recorded ∧ result = verdict response := by
  unfold reject at runs
  obtain ⟨_, _, _, rfl, stopped, afterStop⟩ := Attempt.runs_lift_bind_iff.mp runs
  obtain rfl := indicate_runs_iff.mp stopped
  cases expected : options.expected.contains response.status with
  | true =>
    simp only [expected, if_true] at afterStop
    obtain ⟨_, _, _, rfl, noted, afterNote⟩ := Attempt.runs_lift_bind_iff.mp afterStop
    obtain rfl := Program.runs_record_iff.mp noted
    obtain ⟨rfl, rfl⟩ := Attempt.runs_result_iff.mp afterNote
    simp_all [closing, verdict, failureNote, ProgressEnding.event]
  | false =>
    simp only [expected, Bool.false_eq_true, if_false] at afterStop
    obtain ⟨_, _, _, rfl, noted, afterNote⟩ := Attempt.runs_lift_bind_iff.mp afterStop
    obtain rfl := Program.runs_record_iff.mp noted
    obtain ⟨rfl, rfl⟩ := Attempt.runs_result_iff.mp afterNote
    simp_all [closing, verdict, failureNote, ProgressEnding.event]

theorem refresh_runs {client : Client} {call : Call} {steps : List Step}
    {result : Except CallError Unit}
    (runs : (within call.method call.path client.refreshToken).run.Runs steps result) :
    ∃ message login ending, steps = Step.recorded (.log .warning message) :: login ∧
      LoginCourse client login ending ∧ result = ending.mapError (ofLogin call .refresh) := by
  obtain ⟨refreshed, refresh, rfl⟩ := Attempt.runs_adapt_iff.mp runs
  unfold Client.refreshToken at refresh
  obtain ⟨_, _, _, rfl, logged, afterLog⟩ := Attempt.runs_lift_bind_iff.mp refresh
  obtain rfl := Program.runs_record_iff.mp logged
  obtain ⟨ending, login, rfl⟩ := Attempt.runs_adapt_iff.mp afterLog
  refine ⟨_, _, ending, rfl, .of_runs login, ?_⟩
  cases ending <;> rfl

/-- The ways that the trial can go whose exchange decides the call. Only the refusal of a
first trial does not decide, so the condition `final` leaves out just that. -/
inductive LastTrial (client : Client) (call : Call) (options : CallOptions) (trial : Trial) :
    List Step → Except CallError Http.Response → Prop
  | failed {steps : List Step} {error : CallError}
      (exchange : ExchangeCourse client call options trial steps (.error error)) :
      LastTrial client call options trial steps (.error error)
  | settled {profile : Profile} {request : Http.Request} {response : Http.Response}
      (built : profile.requestOf call options = .ok request)
      (final : ¬ (trial = .first ∧ response.status = Http.forbidden)) :
      LastTrial client call options trial
        (sending client options trial profile request (.answered response) ++
          (closing options response.status).map Step.recorded) (verdict response)

/-- The steps of a first trial whose token is refused. -/
inductive RefusedTrial (client : Client) (call : Call) (options : CallOptions) :
    List Step → Http.Request → Http.Response → Prop
  | refused {profile : Profile} {request : Http.Request} {response : Http.Response}
      (built : profile.requestOf call options = .ok request)
      (status : response.status = Http.forbidden) :
      RefusedTrial client call options
        (sending client options .first profile request (.answered response) ++
          (indication options .hidden).map Step.recorded) request response

/-- The ways that a call can go until it has its response. They are told by what happens,
not by how the call is written, and everything that holds of all runs of a call is read off
from these four. -/
inductive ResponseCourse (client : Client) (call : Call) (options : CallOptions) :
    List Step → Except CallError Http.Response → Prop
  | unauthenticated {steps : List Step} {halt : Halt LoginError}
      (credential : CredentialCourse client steps (.error halt)) :
      ResponseCourse client call options steps (.error (ofLogin call .login halt))
  | once {before steps : List Step} {result : Except CallError Http.Response}
      (credential : CredentialCourse client before (.ok ()))
      (trial : LastTrial client call options .first steps result) :
      ResponseCourse client call options (before ++ steps) result
  | unrefreshed (message : String) {before refused steps : List Step} {request : Http.Request}
      {response : Http.Response} {halt : Halt LoginError}
      (credential : CredentialCourse client before (.ok ()))
      (first : RefusedTrial client call options refused request response)
      (login : LoginCourse client steps (.error halt)) :
      ResponseCourse client call options
        (before ++ (refused ++ Step.recorded (.log .warning message) :: steps))
        (.error (ofLogin call .refresh halt))
  | twice (message retry : String) {before refused login steps : List Step}
      {request : Http.Request} {response : Http.Response}
      {result : Except CallError Http.Response}
      (credential : CredentialCourse client before (.ok ()))
      (first : RefusedTrial client call options refused request response)
      (refresh : LoginCourse client login (.ok ()))
      (trial : LastTrial client call options .afterRefresh steps result) :
      ResponseCourse client call options
        (before ++ (refused ++ Step.recorded (.log .warning message) ::
          (login ++ Step.recorded (.log .info retry) :: steps))) result

/-- The second trial decides the call, however it goes. A second refusal is a status like
any other, since the transition behind it no longer leads to a login. -/
theorem LastTrial.afterRefresh_of_runs {client : Client} {call : Call} {options : CallOptions}
    {steps : List Step} {result : Except CallError Http.Response}
    (runs : (do
      let second ← exchange client call options .afterRefresh
      match Transition.of .afterRefresh second.status with
      | .succeed =>
        stopIndicator options (.finished true)
        return second
      | _ => reject options second : Attempt CallError Http.Response).run.Runs steps result) :
    LastTrial client call options .afterRefresh steps result := by
  rcases Attempt.runs_bind_iff.mp runs with ⟨error, failed, rfl⟩ |
    ⟨_, second, _, rfl, answer, afterAnswer⟩
  · exact .failed (.of_runs failed)
  cases ExchangeCourse.of_runs answer with
  | answered built =>
    cases accepted : accepts second.status with
    | true =>
      rw [transition_succeed_iff.mpr accepted] at afterAnswer
      obtain ⟨rfl, rfl⟩ := accept_runs accepted afterAnswer
      exact .settled built nofun
    | false =>
      have final : ¬ (Trial.afterRefresh = .first ∧ second.status = Http.forbidden) := nofun
      rw [transition_fail_iff.mpr ⟨accepted, final⟩] at afterAnswer
      obtain ⟨rfl, rfl⟩ := reject_runs accepted afterAnswer
      exact .settled built nofun

/-- Every way that the response of a call can be obtained is one of these. The run is taken
apart along the program, once and for all: later proofs go through the four courses and
never look at the steps of a call again. -/
theorem ResponseCourse.of_runs {client : Client} {call : Call} {options : CallOptions}
    {steps : List Step} {result : Except CallError Http.Response}
    (runs : (response client call options).run.Runs steps result) :
    ResponseCourse client call options steps result := by
  unfold response at runs
  rcases Attempt.runs_bind_iff.mp runs with ⟨error, login, rfl⟩ |
    ⟨before, _, _, rfl, login, afterLogin⟩
  · obtain ⟨ending, credential, same⟩ := CredentialCourse.of_runs login
    cases ending with
    | ok value => cases same
    | error halt =>
      cases same
      exact .unauthenticated credential
  obtain ⟨ending, credential, same⟩ := CredentialCourse.of_runs login
  cases ending with
  | error halt => cases same
  | ok value =>
    rcases Attempt.runs_bind_iff.mp afterLogin with ⟨error, failed, rfl⟩ |
      ⟨_, first, _, rfl, answer, afterAnswer⟩
    · exact .once credential (.failed (.of_runs failed))
    cases ExchangeCourse.of_runs answer with
    | answered built =>
      cases transition : Transition.of .first first.status with
      | succeed =>
        rw [transition] at afterAnswer
        have accepted := transition_succeed_iff.mp transition
        obtain ⟨rfl, rfl⟩ := accept_runs accepted afterAnswer
        refine .once credential (.settled built fun refusal => ?_)
        rw [transition_retry_iff.mpr refusal] at transition
        cases transition
      | fail =>
        rw [transition] at afterAnswer
        have rejected := transition_fail_iff.mp transition
        obtain ⟨rfl, rfl⟩ := reject_runs rejected.1 afterAnswer
        exact .once credential (.settled built rejected.2)
      | refreshAndRetry =>
        rw [transition] at afterAnswer
        have refused : RefusedTrial client call options _ _ first :=
          .refused built (transition_retry_iff.mp transition).2
        obtain ⟨_, _, _, rfl, hidden, afterHide⟩ := Attempt.runs_lift_bind_iff.mp afterAnswer
        obtain rfl := indicate_runs_iff.mp hidden
        rcases Attempt.runs_bind_iff.mp afterHide with ⟨error, refresh, rfl⟩ |
          ⟨_, _, _, rfl, refresh, afterRefresh⟩
        · obtain ⟨message, login, ending, rfl, course, same⟩ := refresh_runs refresh
          cases ending with
          | ok value => cases same
          | error halt =>
            cases same
            have course := ResponseCourse.unrefreshed message credential refused course
            simpa [ProgressEnding.event] using course
        · obtain ⟨message, login, ending, rfl, course, same⟩ := refresh_runs refresh
          cases ending with
          | error halt => cases same
          | ok value =>
            obtain ⟨_, _, _, rfl, noted, afterNote⟩ := Attempt.runs_lift_bind_iff.mp afterRefresh
            obtain rfl := Program.runs_record_iff.mp noted
            have last := LastTrial.afterRefresh_of_runs afterNote
            have course := ResponseCourse.twice message
              "Retrying the request with the refreshed token" credential refused course last
            simpa [ProgressEnding.event] using course

/-- What a call does behind its response. -/
def finishing (call : Call) (options : CallOptions) :
    Except CallError Http.Response → Program (CallOptions × Except CallError Payload)
  | .error error => return (options, .error error)
  | .ok received => do
    let payload ← (Payload.ofResponse call.method options.headers received).run
    return ({ options with responseHeaders := some received.headers }, payload)

/-- The ways that a call can go from its begin to its result. What is made of the response
comes behind all that is sent, and works on the files only. -/
inductive Course (client : Client) (call : Call) (options : CallOptions) :
    List Step → CallOptions × Except CallError Payload → Prop
  | whole (message : String) {steps handling : List Step} {result : Except CallError Http.Response}
      {outcome : CallOptions × Except CallError Payload}
      (response : ResponseCourse client call options steps result)
      (handled : (finishing call options result).Runs handling outcome) :
      Course client call options (Step.recorded (.log .info message) :: (steps ++ handling)) outcome

/-- Every run of a call is one of its courses. -/
theorem Course.of_runs {client : Client} {call : Call} {options : CallOptions} {steps : List Step}
    {outcome : CallOptions × Except CallError Payload}
    (runs : (execute client call options).Runs steps outcome) :
    Course client call options steps outcome := by
  unfold execute at runs
  obtain ⟨_, _, _, rfl, noted, afterNote⟩ := Program.runs_bind_iff.mp runs
  obtain rfl := Program.runs_record_iff.mp noted
  obtain ⟨_, result, handling, rfl, answer, handled⟩ := Program.runs_bind_iff.mp afterNote
  have finished : (finishing call options result).Runs handling outcome := by
    cases result <;> exact handled
  rw [List.singleton_append]
  exact .whole "Calling the observability platform API" (.of_runs answer) finished

end Call

end PlatformClient
