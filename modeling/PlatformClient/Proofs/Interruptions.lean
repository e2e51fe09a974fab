import PlatformClient.Proofs.IndicatorSessions
import PlatformClient.Proofs.PreparedRequests
import PlatformClient.Proofs.ProfileLogins

namespace PlatformClient

/-- A request whose sender stops waiting for the reply. -/
def Step.interrupted (purpose : Purpose) (request : Http.Request)
    (why : Http.Interruption) : Step :=
  ⟨.send purpose request, .interrupted why⟩

/-- What is waited for where the wait is interrupted, and why it is. -/
def Step.interruption? : Step → Option (Purpose × Http.Interruption)
  | ⟨.send purpose _, .interrupted why⟩ => some (purpose, why)
  | _ => none

def Step.isInterrupted (step : Step) : Bool := step.interruption?.isSome

/-- Steps among which no wait for the other side is interrupted. -/
def Uninterrupted (steps : List Step) : Prop := ∀ step ∈ steps, step.isInterrupted = false

@[simp] theorem Step.isInterrupted_recorded (event : Event) :
    (Step.recorded event).isInterrupted = false := rfl

@[simp] theorem Step.isInterrupted_readProfile (profile : Profile) :
    Step.isInterrupted ⟨.readProfile, profile⟩ = false := rfl

@[simp] theorem Step.isInterrupted_storeToken (token : String) :
    Step.isInterrupted ⟨.storeToken token, ()⟩ = false := rfl

@[simp] theorem Step.isInterrupted_send_eq_false {purpose : Purpose} {request : Http.Request}
    {reply : Http.Reply} :
    Step.isInterrupted ⟨.send purpose request, reply⟩ = false ↔
      ∀ why, reply ≠ .interrupted why := by
  cases reply <;> simp [Step.isInterrupted, Step.interruption?]

@[simp] theorem uninterrupted_nil : Uninterrupted [] := List.forall_mem_nil _

@[simp] theorem uninterrupted_append {first rest : List Step} :
    Uninterrupted (first ++ rest) ↔ Uninterrupted first ∧ Uninterrupted rest :=
  List.forall_mem_append

@[simp] theorem uninterrupted_cons {step : Step} {rest : List Step} :
    Uninterrupted (step :: rest) ↔ step.isInterrupted = false ∧ Uninterrupted rest :=
  List.forall_mem_cons

@[simp] theorem uninterrupted_recorded (events : List Event) :
    Uninterrupted (events.map Step.recorded) := by
  intro step member
  obtain ⟨event, -, rfl⟩ := List.mem_map.mp member
  rfl

/-- Steps can be taken apart in one way only at the only interruption among them. So
whatever is known of one way to take them apart holds of any other. -/
theorem split_at_only_interruption {first rest before after : List Step} {step other : Step}
    (split : first ++ step :: rest = before ++ other :: after)
    (interrupted : other.isInterrupted = true) (early : Uninterrupted first)
    (late : Uninterrupted rest) : before = first ∧ other = step ∧ after = rest := by
  rcases List.append_eq_append_iff.mp split with ⟨between, rfl, same⟩ | ⟨between, rfl, same⟩
  · cases between with
    | nil => simpa using same.symm
    | cons given between =>
      obtain ⟨rfl, rfl⟩ := List.cons.inj same
      have clear := late other (by simp)
      rw [interrupted] at clear
      cases clear
  · cases between with
    | nil => simpa using same
    | cons given between =>
      obtain ⟨rfl, rfl⟩ := List.cons.inj same
      have clear := early other (by simp)
      rw [interrupted] at clear
      cases clear

theorem uninterrupted_of_local {steps : List Step}
    (here : ∀ step ∈ steps, step.effect.isLocal = true) : Uninterrupted steps := by
  intro step member
  have kind := here step member
  obtain ⟨effect, outcome⟩ := step
  cases effect with
  | send purpose request => cases kind
  | _ => rfl

namespace Login

/-- The login of a profile waits once. Where that is interrupted, it ends there, and has
left the profile as it was: the token would have been stored only behind the reply. -/
theorem ProfileCourse.interruption {userAgent : Option Bytes} {steps : List Step}
    {result : Except (Halt LoginError) Unit} (course : ProfileCourse userAgent steps result) :
    Uninterrupted steps ∨ ∃ before request why,
      steps = before ++ [Step.interrupted .token request why] ∧ Uninterrupted before ∧
        (∀ step ∈ before, step.effect.isIncidental = true ∧ step.effect.sparesProfile = true) ∧
        result = .error (.interrupted why) := by
  cases course with
  | refused message method => exact Or.inl (by simp)
  | trusted message method => exact Or.inl (by simp)
  | @service message profile steps result method course =>
    cases course with
    | unsent unknown => exact Or.inl (by simp)
    | @granted note found request reply token known given =>
      have answered : ∀ why, reply ≠ .interrupted why := by
        rintro why rfl
        cases given
      exact Or.inl (by simpa using answered)
    | @ungranted found request reply halt known refused =>
      cases reply with
      | interrupted why =>
        cases refused
        refine Or.inr ⟨[⟨.readProfile, profile⟩, Step.recorded (.log .info message),
          ⟨.readProfile, found⟩], request, why, rfl, ?_, ?_, rfl⟩
        · simp
        · simp [Effect.isIncidental, Effect.sparesProfile, Step.recorded]
      | _ => exact Or.inl (by simp)

end Login

namespace Call

variable {client : Client} {call : Call} {options : CallOptions}

theorem uninterrupted_sending (client : Client) (options : CallOptions) (trial : Trial)
    (profile : Profile) (request : Http.Request) (response : Http.Response) :
    Uninterrupted (sending client options trial profile request (.answered response)) := by
  simp [sending]

/-- A login that the profile asks for, as a part of a call: it is not interrupted, or it
comes to nothing else. Its end is still noted behind the interruption. -/
theorem LoginCourse.interruption {steps : List Step} {result : Except (Halt LoginError) Unit}
    (course : LoginCourse client steps result) (login : client.login = .profile) :
    Uninterrupted steps ∨ ∃ before request why,
      steps = Step.recorded .loginBegun :: (before ++ [Step.interrupted .token request why,
        Step.recorded (.loginEnded (some (.interrupted why)))]) ∧ Uninterrupted before ∧
        (∀ step ∈ before, step.effect.isIncidental = true ∧ step.effect.sparesProfile = true) ∧
        result = .error (.interrupted why) := by
  cases course with
  | @ended inner _ runs =>
    rw [login] at runs
    rcases (Login.ProfileCourse.of_runs runs).interruption with clear |
      ⟨before, request, why, rfl, clear, spare, rfl⟩
    · exact Or.inl (by simp [clear])
    · exact Or.inr ⟨before, request, why, by simp [LoginProcedure.halt?], clear, spare, rfl⟩

theorem LoginCourse.uninterrupted {steps : List Step} (course : LoginCourse client steps (.ok ()))
    (login : client.login = .profile) : Uninterrupted steps := by
  rcases course.interruption login with clear | ⟨_, _, _, -, -, -, failed⟩
  · exact clear
  · cases failed

theorem CredentialCourse.uninterrupted {steps : List Step}
    (course : CredentialCourse client steps (.ok ())) (login : client.login = .profile) :
    Uninterrupted steps := by
  cases course with
  | cached token => simp
  | obtained message missing obtained =>
    simp [obtained.uninterrupted login]

theorem RefusedTrial.uninterrupted {steps : List Step} {request : Http.Request}
    {response : Http.Response} (course : RefusedTrial client call options steps request response) :
    Uninterrupted steps := by
  cases course with
  | refused built status =>
    simp [uninterrupted_sending]

/-- An exchange that is interrupted fails the call, and only the indicator is told. To the
call it is a reply that is no response, like a broken connection. -/
theorem LastTrial.interruption {trial : Trial} {steps : List Step}
    {result : Except CallError Http.Response}
    (course : LastTrial client call options trial steps result) :
    Uninterrupted steps ∨ ∃ before request why,
      steps = before ++ Step.interrupted .call request why ::
          (indication options (.stop false)).map Step.recorded ∧ Uninterrupted before ∧
        (options.quiet = true → indications before = []) ∧
        result = .error (.interrupted why call.method request.url.print) := by
  cases course with
  | failed exchange =>
    cases exchange with
    | unbuilt refused => exact Or.inl (by simp)
    | @unanswered profile request reply error built failed =>
      have clear : Uninterrupted (⟨.readProfile, profile⟩ ::
          (opening client options trial request).map Step.recorded) := by simp
      cases reply with
      | interrupted why =>
        cases failed
        refine Or.inr ⟨_, request.sentBy client.userAgent, why, ?_, clear, fun quiet => ?_, ?_⟩
        · simp [sending, Step.interrupted]
        · have told := moments_sending client options trial profile request (.interrupted why)
          rw [sending, ← List.cons_append, moments_append, indicated, if_pos quiet] at told
          rw [indications, List.append_cancel_right told]
          rfl
        · rw [Profile.requestOf_method built]
          rfl
      | _ => exact Or.inl (by simp [sending])
  | settled built final =>
    exact Or.inl (by simp [uninterrupted_sending])

/-- What a call names as the place of an interruption: its path where a login is
interrupted, and the address of the request where an exchange is. -/
def placeOf (call : Call) (request : Http.Request) : Purpose → String
  | .token => call.path
  | .call => request.url.print

/-- What the indicator has been told last where a call is interrupted, by whether
there has been an exchange before. -/
def lastIndication (exchanged : Bool) : Purpose → Option ProgressEvent
  | .call => some (.stop false)
  | .token => if exchanged then some .hidden else none

/-- What lies around an interruption that ends a call. Behind it nothing is begun, and in
front of it the profile, the exchanges and the indicator are as the place of the
interruption requires. -/
structure Abandoned (options : CallOptions) (before : List Step) (purpose : Purpose)
    (request : Http.Request) (why : Http.Interruption) (after : List Step) : Prop where
  /-- Nothing is done any more but to note what has happened. -/
  nothing_begun : ∀ step ∈ after, ∃ event, step = Step.recorded event ∧ event ≠ .loginBegun
  /-- An interrupted login has left the profile as it found it. -/
  profile_kept : purpose = .token → ∃ earlier login,
    before = earlier ++ Step.recorded .loginBegun :: login ∧
      (∀ step ∈ login, step.effect.isIncidental = true ∧ step.effect.sparesProfile = true) ∧
      ∀ world : World,
        (world.after (before ++ Step.interrupted purpose request why :: after)).profile =
          (world.after earlier).profile
  last_indication :
    (indications (before ++ Step.interrupted purpose request why :: after)).getLast? =
      if options.quiet then none
      else lastIndication (!(exchanges (proceedings before)).isEmpty) purpose

theorem indications_append (first rest : List Step) :
    indications (first ++ rest) = indications first ++ indications rest := by
  rw [indications, moments_append, indicationsAmong_append]
  rfl

theorem indications_indication (options : CallOptions) (event : ProgressEvent) :
    indications ((indication options event).map Step.recorded) =
      if options.quiet then [] else [event] := by
  rw [indications, moments_indication, indicated]
  split <;> rfl

theorem moments_loginBegun {login : List Step}
    (incidental : ∀ step ∈ login, step.effect.isIncidental = true) :
    moments (Step.recorded .loginBegun :: login) = [.loginBegun] := by
  change .loginBegun :: moments login = _
  rw [moments_of_incidental incidental]

/-- A login that is interrupted behind other steps of a call. -/
theorem Abandoned.of_login {earlier login : List Step} (request : Http.Request)
    (why : Http.Interruption)
    (spare : ∀ step ∈ login, step.effect.isIncidental = true ∧ step.effect.sparesProfile = true)
    (told : (indications earlier).getLast? = if options.quiet then none
      else lastIndication (!(exchanges (proceedings earlier)).isEmpty) .token) :
    Abandoned options (earlier ++ Step.recorded .loginBegun :: login) .token request why
      [Step.recorded (.loginEnded (some (.interrupted why)))] where
  nothing_begun := by
    intro step member
    obtain rfl := List.mem_singleton.mp member
    exact ⟨_, rfl, nofun⟩
  profile_kept := by
    refine fun _ => ⟨earlier, login, rfl, spare, fun world => ?_⟩
    rw [List.append_assoc, World.after_append]
    refine World.after_profile fun step member => ?_
    simp only [List.cons_append, List.mem_cons, List.mem_append, List.not_mem_nil,
      or_false] at member
    rcases member with rfl | inside | rfl | rfl
    · rfl
    · exact (spare step inside).2
    · rfl
    · rfl
  last_indication := by
    have begun := moments_loginBegun fun step member => (spare step member).1
    have silent : indications (Step.recorded .loginBegun :: login) = [] := by
      rw [indications, begun]
      rfl
    have exchanged : exchanges (proceedings (Step.recorded .loginBegun :: login)) = [] := by
      rw [proceedings, begun]
      rfl
    have ended : indications [Step.interrupted .token request why,
      Step.recorded (.loginEnded (some (.interrupted why)))] = [] := rfl
    rw [indications_append, indications_append, silent, ended, proceedings_append,
      exchanges_append, exchanged, List.append_nil, List.append_nil, List.append_nil, told]

/-- An exchange that is interrupted behind other steps of a call. -/
theorem Abandoned.of_exchange {before : List Step} (request : Http.Request)
    (why : Http.Interruption) (quiet : options.quiet = true → indications before = []) :
    Abandoned options before .call request why
      ((indication options (.stop false)).map Step.recorded) where
  nothing_begun := by
    intro step member
    obtain ⟨event, told, rfl⟩ := List.mem_map.mp member
    refine ⟨event, rfl, ?_⟩
    rintro rfl
    unfold indication at told
    split at told <;> simp at told
  profile_kept := nofun
  last_indication := by
    have sent : indications [Step.interrupted .call request why] = [] := rfl
    rw [← List.singleton_append, indications_append, indications_append, sent,
      indications_indication, List.nil_append]
    cases volume : options.quiet with
    | true => simp [quiet volume]
    | false => simp [lastIndication]

/-- What is done before the first exchange is not shown. -/
theorem CredentialCourse.indications_eq {steps : List Step}
    {result : Except (Halt LoginError) Unit} (course : CredentialCourse client steps result) :
    indications steps = [] := by
  rw [← indicationsAmong_sightings, course.sightings_eq]
  rfl

theorem RefusedTrial.indications_eq {steps : List Step} {request : Http.Request}
    {response : Http.Response} (course : RefusedTrial client call options steps request response) :
    indications steps = if options.quiet then []
      else [.start (label .first (request.sentBy client.userAgent)), .hidden] := by
  rw [← indicationsAmong_sightings, course.sightings_eq]
  cases volume : options.quiet with
  | true => exact indications_sessions_quiet volume [_]
  | false =>
    rw [indications_session_loud volume]
    cases course with
    | refused built status =>
      have hidden := ending_eq_hidden_iff.mpr
        ⟨rfl, response, rfl, status_eq_forbidden_iff.mp status⟩
      rw [hidden]
      rfl

/-- Steps of a call up to its response that are interrupted once at most, which is where the
call ends. That there is only one such place makes the steps behind it known. -/
inductive InterruptedOnce (call : Call) (options : CallOptions) :
    List Step → Except CallError Http.Response → Prop
  | never {steps : List Step} {result : Except CallError Http.Response}
      (clear : Uninterrupted steps) : InterruptedOnce call options steps result
  | once {before after : List Step} {purpose : Purpose} {request : Http.Request}
      {why : Http.Interruption} (early : Uninterrupted before) (late : Uninterrupted after)
      (abandoned : Abandoned options before purpose request why after) :
      InterruptedOnce call options (before ++ Step.interrupted purpose request why :: after)
        (.error (.interrupted why call.method (placeOf call request purpose)))

theorem LoginCourse.interruptedOnce {earlier steps : List Step} {halt : Halt LoginError}
    (course : LoginCourse client steps (.error halt)) (login : client.login = .profile)
    (failure : LoginError → CallError) (early : Uninterrupted earlier)
    (told : (indications earlier).getLast? = if options.quiet then none
      else lastIndication (!(exchanges (proceedings earlier)).isEmpty) .token) :
    InterruptedOnce call options (earlier ++ steps) (.error (ofLogin call failure halt)) := by
  rcases course.interruption login with clear | ⟨before, request, why, rfl, clear, spare, same⟩
  · exact .never (uninterrupted_append.mpr ⟨early, clear⟩)
  · cases same
    have abandoned := Abandoned.of_login request why spare told
    have begun : Uninterrupted (Step.recorded .loginBegun :: before) :=
      uninterrupted_cons.mpr ⟨rfl, clear⟩
    have ended : Uninterrupted [Step.recorded (.loginEnded (some (.interrupted why)))] :=
      uninterrupted_recorded [_]
    have ending : InterruptedOnce call options _ _ :=
      .once (uninterrupted_append.mpr ⟨early, begun⟩) ended abandoned
    simpa [ofLogin, placeOf, Client.haltOfLogin, errorOfHalt] using ending

theorem LastTrial.interruptedOnce {earlier steps : List Step} {trial : Trial}
    {result : Except CallError Http.Response}
    (course : LastTrial client call options trial steps result) (early : Uninterrupted earlier)
    (quiet : options.quiet = true → indications earlier = []) :
    InterruptedOnce call options (earlier ++ steps) result := by
  rcases course.interruption with clear | ⟨before, request, why, rfl, clear, silent, rfl⟩
  · exact .never (uninterrupted_append.mpr ⟨early, clear⟩)
  · have told : options.quiet = true → indications (earlier ++ before) = [] := by
      intro volume
      rw [indications_append, quiet volume, silent volume]
      rfl
    have ending : InterruptedOnce call options _ _ :=
      .once (uninterrupted_append.mpr ⟨early, clear⟩) (uninterrupted_recorded _)
        (.of_exchange request why told)
    simpa [placeOf] using ending

/-- A call that logs in as its profile says is interrupted once at most, and then it is
over. In each course the parts before the last have come to success, which an interrupted
part never does. -/
theorem ResponseCourse.interruptedOnce {steps : List Step}
    {result : Except CallError Http.Response}
    (course : ResponseCourse client call options steps result) (login : client.login = .profile) :
    InterruptedOnce call options steps result := by
  cases course with
  | unauthenticated credential =>
    cases credential with
    | @obtained profile message steps _ missing obtained =>
      have parts : ⟨.readProfile, profile⟩ :: Step.recorded (.log .info message) :: steps =
        [⟨.readProfile, profile⟩, Step.recorded (.log .info message)] ++ steps := rfl
      rw [parts]
      refine obtained.interruptedOnce login .login ?_ ?_
      · exact uninterrupted_cons.mpr ⟨rfl, uninterrupted_recorded [_]⟩
      · cases options.quiet <;> rfl
  | once credential trial =>
    exact trial.interruptedOnce (credential.uninterrupted login) fun _ => credential.indications_eq
  | @unrefreshed message earlier refused steps request response halt credential first refresh =>
    have parts : earlier ++ (refused ++ Step.recorded (.log .warning message) :: steps) =
        (earlier ++ (refused ++ [Step.recorded (.log .warning message)])) ++ steps := by simp
    have noted : indications [Step.recorded (.log .warning message)] = [] := rfl
    rw [parts]
    refine refresh.interruptedOnce login .refresh ?_ ?_
    · exact uninterrupted_append.mpr ⟨credential.uninterrupted login,
        uninterrupted_append.mpr ⟨first.uninterrupted, uninterrupted_recorded [_]⟩⟩
    · rw [indications_append, indications_append, credential.indications_eq, first.indications_eq,
        noted, List.nil_append, List.append_nil, proceedings_append, proceedings_append,
        first.proceedings_eq]
      cases options.quiet with
      | true => rfl
      | false => simp [exchanges, lastIndication]
  | @twice message retry earlier refused between steps request response _ credential first refresh
      trial =>
    have parts : earlier ++ (refused ++ Step.recorded (.log .warning message) ::
          (between ++ Step.recorded (.log .info retry) :: steps)) =
        (earlier ++ (refused ++ (Step.recorded (.log .warning message) ::
          (between ++ [Step.recorded (.log .info retry)])))) ++ steps := by simp
    have silent : indications (Step.recorded (.log .warning message) ::
        (between ++ [Step.recorded (.log .info retry)])) = [] := by
      rw [indications, moments_log, moments_append, refresh.moments_eq]
      rfl
    rw [parts]
    refine trial.interruptedOnce ?_ fun quiet => ?_
    · rw [uninterrupted_append, uninterrupted_append, uninterrupted_cons, uninterrupted_append]
      exact ⟨credential.uninterrupted login, first.uninterrupted, rfl,
        refresh.uninterrupted login, uninterrupted_recorded [_]⟩
    · rw [indications_append, indications_append, credential.indications_eq, first.indications_eq,
        silent, quiet]
      rfl

/-- What is noted in front of a call changes nothing of what lies around its
interruption. -/
theorem Abandoned.noted {before after : List Step} {purpose : Purpose} {request : Http.Request}
    {why : Http.Interruption} (message : String)
    (abandoned : Abandoned options before purpose request why after) :
    Abandoned options (Step.recorded (.log .info message) :: before) purpose request why after where
  nothing_begun := abandoned.nothing_begun
  profile_kept := by
    intro login
    obtain ⟨earlier, within, rfl, spare, kept⟩ := abandoned.profile_kept login
    refine ⟨Step.recorded (.log .info message) :: earlier, within, rfl, spare, fun world => ?_⟩
    exact kept (world.answer (.record (.log .info message))).2
  last_indication := abandoned.last_indication

/-- A call that logs in as its profile says ends with every wait for the other side that is
interrupted, be it a login's or an exchange's. Nothing is begun any more, since an
interrupted part has failed, and no course goes on behind a part that has failed. -/
theorem interrupted_call_ends {client : Client} {call : Call} {options : CallOptions}
    {before after : List Step} {purpose : Purpose} {request : Http.Request}
    {why : Http.Interruption} {outcome : CallOptions × Except CallError Payload}
    (login : client.login = .profile)
    (runs : (execute client call options).Runs
      (before ++ Step.interrupted purpose request why :: after) outcome) :
    outcome = (options, .error (.interrupted why call.method (placeOf call request purpose))) ∧
      Abandoned options before purpose request why after := by
  generalize whole : before ++ Step.interrupted purpose request why :: after = steps at runs
  cases Course.of_runs runs with
  | @whole message steps handling result _ response handled =>
    cases response.interruptedOnce login with
    | never clear =>
      have handled_clear :=
        uninterrupted_of_local ((finishing_isLocal call options result).steps handled)
      have noted : Uninterrupted (Step.recorded (.log .info message) :: (steps ++ handling)) :=
        uninterrupted_cons.mpr ⟨rfl, uninterrupted_append.mpr ⟨clear, handled_clear⟩⟩
      rw [← whole] at noted
      cases noted (Step.interrupted purpose request why) (by simp)
    | @once earlier later _ _ _ early late abandoned =>
      obtain ⟨rfl, rfl⟩ := Program.runs_pure_iff.mp handled
      rw [List.append_nil, ← List.cons_append] at whole
      obtain ⟨rfl, same, rfl⟩ :=
        split_at_only_interruption whole.symm rfl (uninterrupted_cons.mpr ⟨rfl, early⟩) late
      cases same
      exact ⟨rfl, abandoned.noted message⟩

end Call

/-- A platform that gives out a token, refuses it, and then is silent until the time
of the call has passed. -/
def silentWorld : World where
  profile := { refusingWorld.profile with token := "" }
  files := Files.emptyAt ["work"]
  remote := .script [
    .answer (.response Http.ok []
      (Text.encode "\x7b\"access_token\":\"fresh\"\x7d")),
    .answer (.response Http.forbidden [] []),
    .answer (.silence .deadlinePassed)]

theorem Step.eq_of_interruption {step : Step} {purpose : Purpose} {why : Http.Interruption}
    (interruption : step.interruption? = some (purpose, why)) :
    ∃ request, step = Step.interrupted purpose request why := by
  obtain ⟨effect, outcome⟩ := step
  cases effect with
  | send given request =>
    cases outcome with
    | interrupted reason =>
      cases interruption
      exact ⟨request, rfl⟩
    | _ => cases interruption
  | _ => cases interruption

/-- Steps can be taken apart where a wait is interrupted. -/
theorem split_at_interruption {steps : List Step} {place : Nat} {purpose : Purpose}
    {why : Http.Interruption}
    (interruption : steps[place]?.bind Step.interruption? = some (purpose, why)) :
    ∃ request, steps =
      steps.take place ++ Step.interrupted purpose request why :: steps.drop (place + 1) := by
  obtain ⟨step, found, waited⟩ := Option.bind_eq_some_iff.mp interruption
  obtain ⟨bound, rfl⟩ := List.getElem?_eq_some_iff.mp found
  obtain ⟨request, same⟩ := Step.eq_of_interruption waited
  refine ⟨request, ?_⟩
  rw [← same, ← List.drop_eq_getElem_cons bound, List.take_append_drop]

/-- The steps of a call to that platform. -/
def silentSteps : List Step := silentWorld.steps (Call.execute .handing .forObjects {})

/-- Where the time passes during the second login, the profile keeps the token of the
first one. -/
theorem Call.interrupted_call_ends_in_refresh :
    ∃ request,
      silentSteps = silentSteps.take 21 ++
          Step.interrupted .token request .deadlinePassed :: silentSteps.drop 22 ∧
        (exchanges (proceedings (silentSteps.take 21))).length = 1 ∧
        (silentWorld.run (execute .handing .forObjects {})).2.profile.token = "fresh" ∧
        (silentWorld.run (execute .handing .forObjects {})).1 =
          ({}, .error (.interrupted .deadlinePassed .get "/objects")) ∧
        Abandoned {} (silentSteps.take 21) .token request .deadlinePassed (silentSteps.drop 22) := by
  have run : silentSteps[21]?.bind Step.interruption? = some (.token, .deadlinePassed) ∧
      (exchanges (proceedings (silentSteps.take 21))).length = 1 ∧
      (silentWorld.run (execute .handing .forObjects {})).2.profile.token = "fresh" := by
    decide +kernel
  obtain ⟨request, split⟩ := split_at_interruption run.1
  have runs : (execute .handing .forObjects {}).Runs silentSteps
    (silentWorld.run (execute .handing .forObjects {})).1 := silentWorld.runs_steps _
  rw [split] at runs
  obtain ⟨outcome, abandoned⟩ := interrupted_call_ends rfl runs
  exact ⟨request, split, run.2.1, run.2.2, outcome, abandoned⟩

end PlatformClient
