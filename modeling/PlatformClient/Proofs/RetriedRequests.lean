import PlatformClient.Proofs.AlikeCalls
import PlatformClient.Proofs.FinalResponses
import PlatformClient.Proofs.SharedCredential

namespace PlatformClient

open Http

namespace Http.Headers

variable {headers other : Headers} {name : HeaderName} {lines : List (HeaderName × Bytes)}

theorem Alike.setAll (lines : List (HeaderName × Bytes)) (alike : headers.Alike other) :
    (headers.setAll lines).Alike (other.setAll lines) := by
  induction lines generalizing headers other with
  | nil => exact alike
  | cons line rest ih => exact ih (alike.insert (.refl line))

end Http.Headers

namespace CallContext

variable {context : CallContext} {method : Method} {path token : String}
  {body : Option CallBody} {headers : CallerHeaders}

theorem withBearer_alike (context : CallContext) (token : String) (headers : CallerHeaders)
    (lower : Headers) :
    (context.withBearer headers lower).Alike
      (withBearer { context with token := token } headers lower) := by
  unfold withBearer
  split
  · exact .refl lower
  · exact (Headers.Alike.refl lower).insert_authorization _ _

theorem withBearer_of_stated (context : CallContext) (lower : Headers)
    (stated : headers.asksFor "authorization" = true) :
    context.withBearer headers lower = lower := if_pos stated

/-- The headers of two requests that are made with different tokens. The token is set as the
authorization and nowhere else, and not even there where the caller states one. -/
theorem addSender_withToken {target : String} {lower result other : Headers}
    (sender : context.addSender target headers lower = .ok result)
    (again : addSender { context with token := token } target headers lower = .ok other) :
    result.Alike other ∧ (headers.asksFor "authorization" = true → result = other) := by
  have sent := addSender_eq_ok sender
  have resent := addSender_eq_ok again
  have bearers := withBearer_alike context token headers lower
  have stays (stated : headers.asksFor "authorization" = true) :
      withBearer { context with token := token } headers lower =
        context.withBearer headers lower := by
    rw [withBearer_of_stated _ _ stated, withBearer_of_stated _ _ stated]
  simp only [] at resent
  split at sent
  · rename_i trusted
    rw [if_pos trusted] at resent
    have identified := (addTo_alike context.identity bearers).2
    rw [sent, resent] at identified
    refine ⟨identified, fun stated => ?_⟩
    rw [stays stated, sent] at resent
    cases resent
    rfl
  · rename_i method
    rw [if_neg method] at resent
    rw [sent, resent]
    exact ⟨bearers, fun stated => (stays stated).symm⟩

/-- Requests of one call that are made with different tokens differ in the authorization at
most, and not at all where the caller states it. All other parts are made without a look at
the token. -/
theorem request_withToken {request other : Request}
    (made : context.request method path body headers = .ok request)
    (again : CallContext.request { context with token := token } method path body headers =
      .ok other) :
    request.Alike other ∧ (headers.asksFor "authorization" = true → request = other) := by
  obtain ⟨content, url, lower, upper, encoded, address, sender, asked, rfl⟩ :=
    request_eq_ok_iff.mp made
  obtain ⟨content', url', lower', upper', encoded', address', sender', asked', rfl⟩ :=
    request_eq_ok_iff.mp again
  obtain rfl := Except.ok.inj (encoded.symm.trans encoded')
  obtain rfl := Except.ok.inj (address.symm.trans address')
  obtain ⟨alike, same⟩ := addSender_withToken sender sender'
  rw [foldlM_addCallerHeader] at asked asked'
  cases faults : headers.filterMap CallerHeaders.fault? with
  | cons fault rest =>
    rw [faults] at asked
    cases asked
  | nil =>
    rw [faults] at asked asked'
    cases asked
    cases asked'
    refine ⟨⟨rfl, rfl, alike.setAll _, rfl⟩, fun stated => ?_⟩
    rw [same stated]

/-- The authorization that a caller states is that of the request. -/
theorem request_stated {request : Request}
    (made : context.request method path body headers = .ok request)
    (stated : headers.asksFor "authorization" = true) :
    ∃ header ∈ headers, CallerHeaders.sameName header.1 "authorization" = true ∧
      header.2.isEmpty = false ∧
      request.headers.values .authorization = [Text.encode header.2] := by
  rw [← CallerHeaders.lastValue?_isSome] at stated
  obtain ⟨value, last⟩ := Option.isSome_iff_exists.mp stated
  have proper : HeaderName.ofString? "authorization" = some .authorization := by decide
  have values := request_values_of_last made proper last
  obtain ⟨before, other, after, rfl, same, filled, -⟩ := CallerHeaders.lastValue?_eq_some.mp last
  exact ⟨(other, value), by simp, same, filled, values⟩

end CallContext

/-- Requests of one call that are made of a profile with different tokens. -/
theorem Profile.requestOf_withToken {profile : Profile} {token : String} {call : Call}
    {options : CallOptions} {request other : Request}
    (built : profile.requestOf call options = .ok request)
    (again : Profile.requestOf { profile with token := token } call options = .ok other) :
    request.Alike other ∧
      (options.headers.asksFor "authorization" = true → request = other) := by
  obtain ⟨context, known, made⟩ := requestOf_eq_ok_iff.mp built
  obtain ⟨renewed, known', made'⟩ := requestOf_eq_ok_iff.mp again
  unfold Profile.context at known known'
  obtain ⟨url, address, same⟩ := bind_eq_ok_iff.mp known
  obtain ⟨url', address', same'⟩ := bind_eq_ok_iff.mp known'
  obtain rfl : url = url' := Except.ok.inj (address.symm.trans address')
  cases same
  cases same'
  exact CallContext.request_withToken made made'

theorem World.profile_after (world : World) (steps : List Step) :
    (world.after steps).profile =
      steps.foldl (fun profile step => step.effect.leave profile) world.profile := by
  induction steps generalizing world with
  | nil => rfl
  | cons step rest ih => exact (ih _).trans (by rw [world.answer_leave]; rfl)

/-- The command that a step shows. -/
def Step.command? : Step → Option String
  | ⟨.record (.command text), _⟩ => some text
  | _ => none

/-- The commands that are shown, in order. -/
def commands (steps : List Step) : List String := steps.filterMap Step.command?

@[simp]
theorem commands_append (first rest : List Step) :
    commands (first ++ rest) = commands first ++ commands rest := List.filterMap_append

@[simp]
theorem commands_log (level : LogLevel) (message : String) (rest : List Step) :
    commands (Step.recorded (.log level message) :: rest) = commands rest := rfl

theorem commands_of_incidental {steps : List Step}
    (incidental : ∀ step ∈ steps, step.effect.isIncidental = true) : commands steps = [] := by
  refine List.filterMap_eq_nil_iff.mpr fun step member => ?_
  have kind := incidental step member
  obtain ⟨effect, outcome⟩ := step
  cases effect with
  | record event =>
    cases event with
    | command text => cases kind
    | _ => rfl
  | _ => rfl

namespace Call

variable {client : Client} {call : Call} {options : CallOptions}

@[simp]
theorem commands_indication (options : CallOptions) (event : ProgressEvent) :
    commands ((indication options event).map Step.recorded) = [] := by
  unfold indication
  cases options.quiet <;> rfl

@[simp]
theorem commands_closing (options : CallOptions) (status : Http.Status) :
    commands ((closing options status).map Step.recorded) = [] := by
  rw [closing, List.map_append, commands_append, commands_indication, failureNote]
  cases accepts status <;> cases options.expected.contains status <;> rfl

/-- Before a request is sent, the command that repeats it is shown once. It is made of the
request as it has been built, whether or not that is sent a second time. -/
@[simp]
theorem commands_sending (client : Client) (options : CallOptions) (trial : Trial)
    (profile : Profile) (request : Http.Request) (reply : Http.Reply) :
    commands (sending client options trial profile request reply) =
      if client.commands = .off then [] else [Curl.command request] := by
  unfold sending opening Client.showing indication
  cases client.commands <;> cases options.quiet <;> rfl

theorem LoginCourse.commands_eq {steps : List Step} {result : Except (Halt LoginError) Unit}
    (course : LoginCourse client steps result) : commands steps = [] := by
  cases course with
  | @ended inner _ runs =>
    have silent := commands_of_incidental ((client.login.incidental client.userAgent).steps runs)
    change commands (inner ++ _) = []
    rw [commands_append, silent]
    rfl

theorem CredentialCourse.commands_eq {steps : List Step} {result : Except (Halt LoginError) Unit}
    (course : CredentialCourse client steps result) : commands steps = [] := by
  cases course with
  | cached token => rfl
  | obtained message missing login => exact login.commands_eq

theorem finishing_commands {steps : List Step} {result : Except CallError Http.Response}
    {outcome : CallOptions × Except CallError Payload}
    (handled : (finishing call options result).Runs steps outcome) : commands steps = [] :=
  commands_of_incidental fun step member =>
    Effect.isIncidental_of_isLocal ((finishing_isLocal call options result).steps handled step member)

/-- What a login of a profile does to it, where it succeeds. It stores the one token that it
is given, or nothing where the identity is taken on trust. -/
theorem LoginCourse.renewal {world : World} {steps : List Step}
    (course : LoginCourse client steps (.ok ())) (login : client.login = .profile)
    (allows : world.Allows steps) :
    (loginMarks steps = [.begun, .ended none] ∧ world.profile.authMethod = .local ∧
      (world.after steps).profile = world.profile) ∨
    ∃ token, loginMarks steps = [.begun, .stored token, .ended none] ∧
      (world.after steps).profile = { world.profile with token := token } ∧
      ∃ request reply, ⟨.send .token request, reply⟩ ∈ steps ∧
        Login.tokenOfReply request.url reply = .ok token := by
  cases course with
  | @ended inner _ runs =>
    rw [login] at runs
    obtain ⟨-, allows⟩ := allows
    rw [World.profile_after]
    cases Login.ProfileCourse.of_runs runs with
    | @trusted message profile machine =>
      obtain rfl := World.profile_of_allows allows
      exact Or.inl ⟨rfl, machine, rfl⟩
    | @service message profile rest _ service course =>
      cases course with
      | @granted note given request reply token known granted =>
        exact Or.inr ⟨token, rfl, rfl, request, reply, by simp, granted⟩

/-- A call that sends two requests, taken apart where they are sent. Between the trials lies
the login, and each of them reads the profile anew. -/
structure TwoTrials (client : Client) (call : Call) (options : CallOptions)
    (steps early between late : List Step) (profile renewed : Profile) (built rebuilt : Http.Request)
    (first second : Http.Reply) : Prop where
  steps_eq : steps = early ++ (sending client options .first profile built first ++
    (between ++ (sending client options .afterRefresh renewed rebuilt second ++ late)))
  built : profile.requestOf call options = .ok built
  rebuilt : renewed.requestOf call options = .ok rebuilt
  refresh : ∃ noted login retry, LoginCourse client login (.ok ()) ∧
    between = noted ++ (login ++ [Step.recorded (.log .info retry)]) ∧ loginMarks noted = [] ∧
      ∀ step ∈ noted, step.effect.sparesProfile = true
  commands_early : commands early = []
  commands_between : commands between = []
  commands_late : commands late = []

theorem LastTrial.sent {trial : Trial} {steps : List Step} {result : Except CallError Http.Response}
    {exchange : Http.Request × Http.Reply}
    (course : LastTrial client call options trial steps result)
    (only : exchanges (proceedings steps) = [exchange]) :
    ∃ profile request events, profile.requestOf call options = .ok request ∧
      exchange.1 = request.sentBy client.userAgent ∧
      steps = sending client options trial profile request exchange.2 ++ events ∧
      commands events = [] := by
  cases course with
  | failed exchange =>
    cases exchange with
    | unbuilt refused => cases only
    | unanswered built failed =>
      simp only [proceedings_append, proceedings_sending, proceedings_indication,
        List.append_nil] at only
      cases only
      exact ⟨_, _, _, built, rfl, rfl, by simp⟩
  | settled built final =>
    simp only [proceedings_append, proceedings_sending, proceedings_closing,
      List.append_nil] at only
    cases only
    exact ⟨_, _, _, built, rfl, rfl, by simp⟩

/-- Two requests are those of the two trials. No course sends a second one in any other
place. -/
theorem Course.twoTrials {steps : List Step} {outcome : CallOptions × Except CallError Payload}
    {first second : Http.Request × Http.Reply}
    (course : Course client call options steps outcome)
    (both : exchanges (proceedings steps) = [first, second]) :
    ∃ early between late profile renewed built rebuilt,
      TwoTrials client call options steps early between late profile renewed built rebuilt
        first.2 second.2 ∧
      first.1 = built.sentBy client.userAgent ∧ second.1 = rebuilt.sentBy client.userAgent := by
  obtain ⟨message, response, handling, result, rfl, course, handled⟩ := course.parts
  rw [proceedings_log, proceedings_append, finishing_proceedings handled, List.append_nil] at both
  have tail := finishing_commands handled
  -- All courses but the last have one exchange at most.
  cases course with
  | unauthenticated credential =>
    rw [credential.silent] at both
    cases both
  | @once _ decisive _ credential trial =>
    rw [proceedings_append, exchanges_append, credential.silent, List.nil_append] at both
    have exchange := trial.lastExchange
    generalize proceedings decisive = order at exchange both
    cases exchange <;> cases both
  | unrefreshed warning credential refused login =>
    rw [proceedings_append, exchanges_append, credential.silent, proceedings_append,
      exchanges_append, refused.proceedings_eq, proceedings_log, login.silent] at both
    cases both
  | @twice warning retry before refusal login decisive built _ _ credential refused refresh trial =>
    rw [proceedings_append, exchanges_append, credential.silent, proceedings_append,
      exchanges_append, refused.proceedings_eq, proceedings_log, proceedings_append,
      exchanges_append, refresh.silent, proceedings_log, List.nil_append, List.nil_append] at both
    obtain ⟨rfl, last⟩ := List.cons.inj both
    obtain ⟨renewed, rebuilt, events, again, same, rfl, none⟩ := trial.sent last
    cases refused with
    | @refused profile _ _ made status =>
      refine ⟨Step.recorded (.log .info message) :: before,
        (indication options .hidden).map Step.recorded ++ Step.recorded (.log .warning warning) ::
          (login ++ [Step.recorded (.log .info retry)]), events ++ handling, profile, renewed, built,
        rebuilt, ⟨?_, made, again, ?_, ?_, ?_, ?_⟩, rfl, same⟩
      · simp
      · refine ⟨(indication options .hidden).map Step.recorded ++
          [Step.recorded (.log .warning warning)], login, retry, refresh, by simp, by simp; rfl, ?_⟩
        refine List.forall_mem_append.mpr
          ⟨fun step member => (recorded_spares _ step member).1, ?_⟩
        exact List.forall_mem_singleton.mpr rfl
      · exact credential.commands_eq
      · simp [refresh.commands_eq]
        rfl
      · simp [none, tail]

/-- Where a profile logs in between two trials, the second is made of the profile as the
first was, with the token that the login has stored, if it needs one. Nothing else writes to
the profile in between. -/
theorem TwoTrials.renewed_eq {world : World} {steps early between late : List Step}
    {profile renewed : Profile} {built rebuilt : Http.Request} {first second : Http.Reply}
    (trials : TwoTrials client call options steps early between late profile renewed built rebuilt
      first second) (login : client.login = .profile) (allows : world.Allows steps) :
    (world.after early).profile = profile ∧
      (world.after (early ++ (sending client options .first profile built first ++
        between))).profile = renewed ∧
      (loginMarks between = [.begun, .ended none] ∧ profile.authMethod = .local ∧
          renewed = profile ∨
        loginMarks between = [.begun, .stored renewed.token, .ended none] ∧
          renewed = { profile with token := renewed.token }) := by
  obtain ⟨noted, refresh, retry, course, rfl, silent, spares⟩ := trials.refresh
  rw [trials.steps_eq] at allows
  obtain ⟨-, allows⟩ := World.allows_append.mp allows
  have found : (world.after early).profile = profile := World.profile_of_allows allows
  obtain ⟨-, allows⟩ := World.allows_append.mp allows
  rw [World.allows_append] at allows
  obtain ⟨within, allows⟩ := allows
  have again := World.profile_of_allows allows
  have sent : ((world.after early).after
      (sending client options .first profile built first)).profile = profile := by
    rw [World.after_profile fun step member => (sending_spares _ _ _ _ step member).1, found]
  obtain ⟨-, within⟩ := World.allows_append.mp within
  have renewal := course.renewal login (World.allows_append.mp within).1
  rw [World.after_profile spares, sent] at renewal
  have marks : loginMarks (noted ++ (refresh ++ [Step.recorded (.log .info retry)])) =
      loginMarks refresh := by
    rw [loginMarks_append, silent, loginMarks_append]
    exact List.append_nil _
  have reached := again
  simp only [World.after_append] at reached
  change ((((world.after early).after _).after noted).after refresh).profile = renewed at reached
  rw [reached] at renewal
  rw [marks]
  refine ⟨found, by rwa [World.after_append, World.after_append], ?_⟩
  rcases renewal with ⟨trusted, machine, same⟩ | ⟨token, stored, same, -⟩
  · exact Or.inl ⟨trusted, machine, same⟩
  · subst same
    exact Or.inr ⟨stored, rfl⟩

/-- A call whose request is sent a second time behind a refresh, taken apart at its trials.
Both requests are made of the profile that is read right before, and the two profiles differ
in the token. -/
structure Resent (client : Client) (call : Call) (options : CallOptions) (world : World)
    (first second : Http.Request × Http.Reply) (early between late : List Step)
    (profile renewed : Profile) (built rebuilt : Http.Request) : Prop where
  steps_eq : world.steps (execute client call options) =
    early ++ (sending client options .first profile built first.2 ++
      (between ++ (sending client options .afterRefresh renewed rebuilt second.2 ++ late)))
  first_eq : first.1 = built.sentBy client.userAgent
  second_eq : second.1 = rebuilt.sentBy client.userAgent
  /-- Each request is built of the profile as it is at that moment. -/
  profile_eq : (world.after early).profile = profile
  renewed_eq : (world.after (early ++ (sending client options .first profile built first.2 ++
    between))).profile = renewed
  alike : first.1.Alike second.1
  /-- What the caller states as authorization is sent both times, and nothing differs. -/
  stated : options.headers.asksFor "authorization" = true → first.1 = second.1 ∧
    ∃ header ∈ options.headers, CallerHeaders.sameName header.1 "authorization" = true ∧
      header.2.isEmpty = false ∧
      first.1.headers.values .authorization = [Text.encode header.2]
  unstated : options.headers.asksFor "authorization" = false →
    first.1.headers.values .authorization = [Text.encode ("Bearer " ++ profile.token)] ∧
    second.1.headers.values .authorization = [Text.encode ("Bearer " ++ renewed.token)]
  /-- The refresh obtains the token for the second request. Where an identity is taken on
  trust, there is none to obtain, and the profile stays. -/
  refreshed : loginMarks between = [.begun, .stored renewed.token, .ended none] ∨
    loginMarks between = [.begun, .ended none] ∧ profile.authMethod = .local ∧ renewed = profile
  commands_eq : client.commands ≠ .off →
    ∃ text, commands (world.steps (execute client call options)) = [text, text]

/-- A call that sends two requests sends the same request twice, apart from the token. The
call is not changed by its first trial, and its body is made anew from the same values, so
that the profile is the only way in which something new can come in. -/
theorem resent_request {world : World} {first second : Http.Request × Http.Reply}
    (login : client.login = .profile)
    (both : exchanges (proceedings (world.steps (execute client call options))) =
      [first, second]) :
    ∃ early between late profile renewed built rebuilt,
      Resent client call options world first second early between late profile renewed built
        rebuilt := by
  have course := Course.of_runs (world.runs_steps (execute client call options))
  obtain ⟨early, between, late, profile, renewed, built, rebuilt, trials, one, two⟩ :=
    course.twoTrials both
  obtain ⟨found, again, refreshed⟩ := trials.renewed_eq login (world.allows_steps _)
  have same : ∃ token, renewed = { profile with token := token } := by
    rcases refreshed with ⟨-, -, same⟩ | ⟨-, same⟩
    · exact ⟨profile.token, same⟩
    · exact ⟨_, same⟩
  have requests : built.Alike rebuilt ∧
      (options.headers.asksFor "authorization" = true → built = rebuilt) := by
    obtain ⟨token, rfl⟩ := same
    exact Profile.requestOf_withToken trials.built trials.rebuilt
  refine ⟨early, between, late, profile, renewed, built, rebuilt, {
    steps_eq := trials.steps_eq
    first_eq := one
    second_eq := two
    profile_eq := found
    renewed_eq := again
    alike := ?_
    stated := ?_
    unstated := ?_
    refreshed := ?_
    commands_eq := ?_ }⟩
  · rw [one, two]
    exact requests.1.sentBy client.userAgent
  · intro stated
    obtain ⟨context, -, made⟩ := Profile.requestOf_eq_ok_iff.mp trials.built
    obtain ⟨header, entry, name, filled, only⟩ := CallContext.request_stated made stated
    rw [one, two, requests.2 stated]
    rw [requests.2 stated] at only
    exact ⟨rfl, header, entry, name, filled, Request.sentBy_authorization only _⟩
  · intro silent
    rw [one, two]
    exact ⟨Request.sentBy_authorization (Profile.requestOf_bearer trials.built silent) _,
      Request.sentBy_authorization (Profile.requestOf_bearer trials.rebuilt silent) _⟩
  · rcases refreshed with trusted | ⟨stored, -⟩
    · exact Or.inr trusted
    · exact Or.inl stored
  · intro shown
    refine ⟨Curl.command built, ?_⟩
    rw [trials.steps_eq]
    simp only [commands_append, trials.commands_early, trials.commands_between,
      trials.commands_late, commands_sending, if_neg shown, Curl.command_eq requests.1]
    rfl

/-- The second request for the file carries the token that was given out in between. -/
theorem resent_request_for_file : ∃ first second,
    exchanges (proceedings refreshingSteps) = [first, second] ∧ first.1 ≠ second.1 ∧
    ∃ early between late profile renewed built rebuilt,
      Resent .handing .forObjects savingOptions refreshingWorld first second early between late
        profile renewed built rebuilt := by
  have run : (exchanges (proceedings refreshingSteps)).length = 2 ∧
      ((exchanges (proceedings refreshingSteps)).map (·.1)).Nodup := by
    decide +kernel
  obtain ⟨first, second, both⟩ := List.length_eq_two.mp run.1
  have differ : first.1 ≠ second.1 := by simpa [both] using run.2
  exact ⟨first, second, both, differ, resent_request rfl both⟩

end Call

end PlatformClient
