import PlatformClient.Proofs.RetryProtocol

namespace PlatformClient

namespace ProgressEvent

def isStart : ProgressEvent → Bool
  | .start _ => true
  | _ => false

/-- Whether an event ends a run of the indicator. -/
def isTerminal : ProgressEvent → Bool
  | .start _ => false
  | _ => true

@[simp]
theorem isStart_start (label : String) : (start label).isStart = true := rfl

@[simp]
theorem isStart_hidden : hidden.isStart = false := rfl

@[simp]
theorem isTerminal_eq_not_isStart (event : ProgressEvent) :
    event.isTerminal = !event.isStart := by
  cases event <;> rfl

end ProgressEvent

/-- The exchanges of a call and what the indicator is told, in order. -/
def sightings (steps : List Step) : List Moment := (moments steps).filter (!·.isLogin)

/-- What the indicator is told among some moments. -/
def indicationsAmong (moments : List Moment) : List ProgressEvent :=
  moments.filterMap fun
    | .indication event => some event
    | _ => none

/-- What the indicator is told, in order. -/
def indications (steps : List Step) : List ProgressEvent := indicationsAmong (moments steps)

@[simp]
theorem sightings_append (first rest : List Step) :
    sightings (first ++ rest) = sightings first ++ sightings rest := by
  simp [sightings]

@[simp]
theorem sightings_log (level : LogLevel) (message : String) (rest : List Step) :
    sightings (Step.recorded (.log level message) :: rest) = sightings rest := rfl

@[simp]
theorem sightings_readProfile (profile : Profile) (rest : List Step) :
    sightings (⟨.readProfile, profile⟩ :: rest) = sightings rest := rfl

theorem indicationsAmong_append (first rest : List Moment) :
    indicationsAmong (first ++ rest) = indicationsAmong first ++ indicationsAmong rest :=
  List.filterMap_append

theorem indicationsAmong_sightings (steps : List Step) :
    indicationsAmong (sightings steps) = indications steps := by
  rw [indications, indicationsAmong, indicationsAmong, sightings, List.filterMap_filter]
  congr 1
  funext moment
  cases moment <;> rfl

theorem exchanges_proceedings (steps : List Step) :
    exchanges (proceedings steps) = exchanges (sightings steps) := by
  rw [exchanges, exchanges, proceedings, sightings, List.filterMap_filter, List.filterMap_filter]
  congr 1
  funext moment
  cases moment <;> rfl

namespace Call

variable {client : Client} {call : Call} {options : CallOptions}

/-- How the indicator ends its run for an exchange. -/
def ending (trial : Trial) : Http.Reply → ProgressEvent
  | .answered response =>
    if 200 ≤ response.status.code ∧ response.status.code < 300 ∨ response.status.code = 303 then
      .stop true
    else if trial = .first ∧ response.status.code = 403 then .hidden
    else .stop false
  | _ => .stop false

/-- An exchange in the run of the indicator that shows it. -/
def session (options : CallOptions) (trial : Trial) (exchange : Http.Request × Http.Reply) :
    List Moment :=
  indicated options (.start (label trial exchange.1)) ++ .exchange exchange.1 exchange.2 ::
    indicated options (ending trial exchange.2)

/-- The exchanges of a call, each in a run of its own. -/
def sessions (options : CallOptions) : List (Http.Request × Http.Reply) → List Moment
  | [] => []
  | [first] => session options .first first
  | first :: second :: _ => session options .first first ++ session options .afterRefresh second

@[simp]
theorem filter_login_indicated (options : CallOptions) (event : ProgressEvent) :
    (indicated options event).filter (!·.isLogin) = indicated options event := by
  unfold indicated
  split <;> rfl

@[simp]
theorem sightings_indication (options : CallOptions) (event : ProgressEvent) :
    sightings ((indication options event).map Step.recorded) = indicated options event := by
  simp [sightings]

@[simp]
theorem sightings_closing (options : CallOptions) (status : Http.Status) :
    sightings ((closing options status).map Step.recorded) =
      indicated options (.stop (accepts status)) := by
  simp [sightings]

@[simp]
theorem sightings_sending (client : Client) (options : CallOptions) (trial : Trial)
    (profile : Profile) (request : Http.Request) (reply : Http.Reply) :
    sightings (sending client options trial profile request reply) =
      indicated options (.start (label trial (request.sentBy client.userAgent))) ++
        [.exchange (request.sentBy client.userAgent) reply] := by
  rw [sightings, moments_sending, List.filter_append, filter_login_indicated]
  rfl

theorem LoginCourse.sightings_eq {steps : List Step} {result : Except (Halt LoginError) Unit}
    (course : LoginCourse client steps result) : sightings steps = [] := by
  rw [sightings, course.moments_eq]
  rfl

theorem CredentialCourse.sightings_eq {steps : List Step} {result : Except (Halt LoginError) Unit}
    (course : CredentialCourse client steps result) : sightings steps = [] := by
  cases course with
  | cached token => rfl
  | obtained message missing login => simp [login.sightings_eq]

theorem accepts_iff {status : Http.Status} :
    accepts status = true ↔ 200 ≤ status.code ∧ status.code < 300 ∨ status.code = 303 := by
  obtain ⟨code, lower, upper⟩ := status
  simp [accepts, Http.Status.isSuccess, Http.seeOther]

theorem status_eq_forbidden_iff {status : Http.Status} :
    status = Http.forbidden ↔ status.code = 403 := by
  obtain ⟨code, lower, upper⟩ := status
  simp [Http.forbidden]

/-- A response that decides a call ends the indicator's run as its status says. -/
theorem ending_of_final {trial : Trial} {response : Http.Response}
    (final : ¬ (trial = .first ∧ response.status = Http.forbidden)) :
    ending trial (.answered response) = .stop (accepts response.status) := by
  rw [status_eq_forbidden_iff] at final
  cases accepted : accepts response.status with
  | true => simp [ending, accepts_iff.mp accepted]
  | false =>
    have other := mt accepts_iff.mpr (Bool.eq_false_iff.mp accepted)
    simp only [ending, if_neg other, if_neg final]

/-- The trial that decides a call is seen as one run of the indicator, or not at all where
no request can be built. The run ends as the response is judged. -/
theorem LastTrial.sightings_eq {trial : Trial} {steps : List Step}
    {result : Except CallError Http.Response}
    (course : LastTrial client call options trial steps result) :
    sightings steps = [] ∨ ∃ exchange, sightings steps = session options trial exchange := by
  cases course with
  | failed exchange =>
    cases exchange with
    | unbuilt refused => exact Or.inl rfl
    | @unanswered profile request reply error built failed =>
      refine Or.inr ⟨(request.sentBy client.userAgent, reply), ?_⟩
      have stopped : ending trial reply = .stop false := by
        cases reply with
        | answered response => cases failed
        | _ => rfl
      simp [session, stopped]
  | @settled profile request response built final =>
    refine Or.inr ⟨(request.sentBy client.userAgent, .answered response), ?_⟩
    simp [session, ending_of_final final]

theorem RefusedTrial.sightings_eq {steps : List Step} {request : Http.Request}
    {response : Http.Response} (course : RefusedTrial client call options steps request response) :
    sightings steps =
      session options .first (request.sentBy client.userAgent, .answered response) := by
  cases course with
  | refused built status =>
    have hidden : ending .first (.answered response) = .hidden := by
      simp [ending, status, Http.forbidden]
    simp [session, hidden]

theorem exchanges_indicated (options : CallOptions) (event : ProgressEvent) :
    exchanges (indicated options event) = [] := by
  unfold indicated
  split <;> rfl

theorem exchanges_session (options : CallOptions) (trial : Trial)
    (exchange : Http.Request × Http.Reply) :
    exchanges (session options trial exchange) = [exchange] := by
  rw [session, exchanges_append, exchanges_indicated, List.nil_append, ← List.singleton_append,
    exchanges_append, exchanges_indicated]
  rfl

theorem exchanges_sessions (options : CallOptions) (told : List (Http.Request × Http.Reply)) :
    sessions options (exchanges (sessions options told)) = sessions options told := by
  match told with
  | [] => rfl
  | [first] => rw [sessions, exchanges_session]; rfl
  | first :: second :: _ =>
    rw [sessions, exchanges_append, exchanges_session, exchanges_session]
    rfl

/-- What is seen of a course are the runs of its exchanges, in their order. Logins and notes
of the log are not seen, and a refused trial has its own run before that of the other
begins. -/
theorem ResponseCourse.sightings_eq {steps : List Step} {result : Except CallError Http.Response}
    (course : ResponseCourse client call options steps result) :
    ∃ told, sightings steps = sessions options told := by
  cases course with
  | unauthenticated credential => exact ⟨[], credential.sightings_eq⟩
  | once credential trial =>
    rw [sightings_append, credential.sightings_eq, List.nil_append]
    rcases trial.sightings_eq with none | ⟨exchange, shown⟩
    · exact ⟨[], none⟩
    · exact ⟨[exchange], shown⟩
  | @unrefreshed message _ _ _ request response _ credential first login =>
    refine ⟨[(request.sentBy client.userAgent, .answered response)], ?_⟩
    simp only [sightings_append, sightings_log, credential.sightings_eq, first.sightings_eq,
      login.sightings_eq, List.nil_append, List.append_nil]
    rfl
  | twice message retry credential first refresh trial =>
    simp only [sightings_append, sightings_log, credential.sightings_eq, first.sightings_eq,
      refresh.sightings_eq, List.nil_append]
    rcases trial.sightings_eq with none | ⟨exchange, shown⟩
    · exact ⟨[_], by rw [none, List.append_nil]; rfl⟩
    · exact ⟨[_, exchange], by rw [shown]; rfl⟩

theorem Course.sightings_eq {steps : List Step} {outcome : CallOptions × Except CallError Payload}
    (course : Course client call options steps outcome) :
    ∃ told, sightings steps = sessions options told := by
  cases course with
  | whole message response handled =>
    obtain ⟨told, shown⟩ := response.sightings_eq
    refine ⟨told, ?_⟩
    rw [sightings_log, sightings_append, shown, sightings, finishing_silent handled,
      List.filter_nil, List.append_nil]

theorem ending_isTerminal (trial : Trial) (reply : Http.Reply) :
    (ending trial reply).isTerminal = true := by
  unfold ending
  split
  · split
    · rfl
    · split <;> rfl
  · rfl

theorem ending_eq_hidden_iff {trial : Trial} {reply : Http.Reply} :
    ending trial reply = .hidden ↔ trial = .first ∧ ∃ response, reply = .answered response ∧
      response.status.code = 403 := by
  cases reply with
  | answered response =>
    by_cases refused : response.status.code = 403
    · cases trial <;> simp [ending, refused]
    · simp only [ending, refused, and_false, if_false, Http.Reply.answered.injEq,
        exists_eq_left', iff_false]
      split <;> simp
  | _ => simp [ending]

@[simp]
theorem indications_session_loud {trial : Trial} (loud : options.quiet = false)
    (exchange : Http.Request × Http.Reply) :
    indicationsAmong (session options trial exchange) =
      [.start (label trial exchange.1), ending trial exchange.2] := by
  simp [session, indicated, loud, indicationsAmong]

theorem indications_sessions_quiet (quiet : options.quiet = true)
    (told : List (Http.Request × Http.Reply)) : indicationsAmong (sessions options told) = [] := by
  have silent : ∀ trial exchange, indicationsAmong (session options trial exchange) = [] := by
    simp [session, indicated, quiet, indicationsAmong]
  match told with
  | [] => rfl
  | [first] => exact silent .first first
  | first :: second :: _ =>
    rw [sessions, indicationsAmong_append, silent, silent]
    rfl

/-- The runs that the indicator goes through in a call: none, one, or a hidden
one with another behind it. Each has one start and one terminal event. -/
inductive Bracketed : List ProgressEvent → Prop
  | silent : Bracketed []
  | once (label : String) {terminal : ProgressEvent} (ends : terminal.isTerminal = true) :
      Bracketed [.start label, terminal]
  | twice (label retry : String) {terminal : ProgressEvent} (ends : terminal.isTerminal = true) :
      Bracketed [.start label, .hidden, .start retry, terminal]

/-- What the indicator sees of a call, by the exchanges of it. That each exchange stands in
a run of its own carries the rest: starts and terminal events are counted off from these
runs. -/
structure Bracketing (options : CallOptions) (steps : List Step) : Prop where
  quiet : options.quiet = true → indications steps = []
  bracketed : Bracketed (indications steps)
  starts : options.quiet = false →
    (indications steps).countP (·.isStart) = (exchanges (proceedings steps)).length
  /-- Every exchange has its terminal event, which tells how it ended. -/
  terminals : options.quiet = false → (indications steps).filter (·.isTerminal) =
    List.zipWith ending [.first, .afterRefresh] ((exchanges (proceedings steps)).map (·.2))
  /-- Every exchange stands between the start and the terminal event of its own run. -/
  interleaved : sightings steps = sessions options (exchanges (proceedings steps))

theorem Bracketing.of_quiet {steps : List Step} (quiet : options.quiet = true)
    (interleaved : sightings steps = sessions options (exchanges (proceedings steps))) :
    Bracketing options steps := by
  have silent : indications steps = [] := by
    rw [← indicationsAmong_sightings, interleaved, indications_sessions_quiet quiet]
  have loud : options.quiet ≠ false := by simp [quiet]
  exact {
    quiet := fun _ => silent
    bracketed := silent ▸ .silent
    starts := fun quiet => absurd quiet loud
    terminals := fun quiet => absurd quiet loud
    interleaved := interleaved }

/-- Two runs of the indicator are told apart by the first being hidden. It is, because a
second exchange is made only behind a refusal. -/
theorem Bracketing.of_loud {steps : List Step} (loud : options.quiet = false)
    (interleaved : sightings steps = sessions options (exchanges (proceedings steps)))
    (most : (exchanges (proceedings steps)).length ≤ 2)
    (refused : ∀ first second, exchanges (proceedings steps) = [first, second] →
      first.2.isRefusal = true) : Bracketing options steps := by
  have told : indications steps =
      indicationsAmong (sessions options (exchanges (proceedings steps))) := by
    rw [← indicationsAmong_sightings, interleaved]
  have noisy : options.quiet = true → indications steps = [] := by simp [loud]
  rcases done : exchanges (proceedings steps) with _ | ⟨first, _ | ⟨second, _ | ⟨third, more⟩⟩⟩
  · rw [done] at told
    refine ⟨noisy, told ▸ .silent, ?_, ?_, interleaved⟩ <;> intro _ <;> rw [told, done] <;> rfl
  · rw [done, sessions, indications_session_loud loud] at told
    have ends := ending_isTerminal .first first.2
    refine ⟨noisy, told ▸ .once _ ends, ?_, ?_, interleaved⟩
    all_goals
      intro _
      rw [ProgressEvent.isTerminal_eq_not_isStart, Bool.not_eq_true'] at ends
      simp [told, done, ends, List.countP_cons]
  · rw [done, sessions, indicationsAmong_append, indications_session_loud loud,
      indications_session_loud loud] at told
    have ends := ending_isTerminal .afterRefresh second.2
    -- A second exchange is there only behind a refusal, whose run of the indicator is hidden.
    have hidden : ending .first first.2 = .hidden := by
      have refusal := refused first second done
      rcases first with ⟨request, reply⟩
      cases reply with
      | answered response =>
        have status : response.status = Http.forbidden := by
          simpa [Http.Reply.isRefusal] using refusal
        exact ending_eq_hidden_iff.mpr ⟨rfl, response, rfl, status_eq_forbidden_iff.mp status⟩
      | _ => cases refusal
    refine ⟨noisy, ?_, ?_, ?_, interleaved⟩
    · rw [told, hidden]
      exact .twice _ _ ends
    all_goals
      intro _
      rw [ProgressEvent.isTerminal_eq_not_isStart, Bool.not_eq_true'] at ends
      simp [told, done, ends, hidden, List.countP_cons]
  · rw [done] at most
    simp at most

/-- In every run of a call the indicator is started for each exchange, and ended once as
that exchange ends. This also holds of a call that is interrupted or whose connection
breaks: how the run ends is decided by the trial and its reply alone. -/
theorem indicator_bracketing {steps : List Step}
    {outcome : CallOptions × Except CallError Payload}
    (runs : (execute client call options).Runs steps outcome) : Bracketing options steps := by
  have course := Course.of_runs runs
  obtain ⟨profile, result, -, protocol, -⟩ := course.protocol
  have interleaved : sightings steps = sessions options (exchanges (proceedings steps)) := by
    obtain ⟨told, shown⟩ := course.sightings_eq
    rw [exchanges_proceedings, shown, exchanges_sessions]
  cases volume : options.quiet with
  | true => exact .of_quiet volume interleaved
  | false =>
    exact .of_loud volume interleaved protocol.exchanges_le fun first second both =>
      (protocol.second_exchange both).1

end Call

/-- The indicator is hidden behind a refusal and started again for the retry. -/
theorem Call.indicator_bracketing_refused_twice :
    indications (refusingWorld.steps (execute .handing .forObjects {})) = [
        .start "Platform API call (GET /objects)", .hidden,
        .start "Platform API call, retry after login (GET /objects)", .stop false] ∧
    Bracketing {} (refusingWorld.steps (execute .handing .forObjects {})) :=
  ⟨by decide +kernel, indicator_bracketing (refusingWorld.runs_steps _)⟩

end PlatformClient
