import PlatformClient.Proofs.Observers
import PlatformClient.Proofs.ResponseHandling
import PlatformClient.Proofs.RetriedRequests

namespace PlatformClient.Call

section Commands

/-- The requests that are built in some steps of a call are the ones that are sent, each of
a profile that is read, and there is one command for each of them, unless none are shown. It
is stable under putting steps in a row, which is how it is found for a whole call. -/
structure Hands (client : Client) (call : Call) (options : CallOptions) (steps : List Step)
    (built : List Http.Request) : Prop where
  commands_eq : commands steps =
    if client.commands = .off then [] else built.map Http.Curl.command
  sent : (exchanges (proceedings steps)).map (·.1) = built.map (·.sentBy client.userAgent)
  origin : ∀ request ∈ built, ∃ profile, ⟨.readProfile, profile⟩ ∈ steps ∧
    profile.requestOf call options = .ok request

variable {client : Client} {call : Call} {options : CallOptions}

theorem Hands.of_silent {steps : List Step} (silent : exchanges (proceedings steps) = [])
    (unshown : commands steps = []) : Hands client call options steps [] where
  commands_eq := by rw [unshown, List.map_nil, ite_self]
  sent := by rw [silent]; rfl
  origin := List.forall_mem_nil _

theorem Hands.append {first rest : List Step} {early late : List Http.Request}
    (before : Hands client call options first early)
    (behind : Hands client call options rest late) :
    Hands client call options (first ++ rest) (early ++ late) where
  commands_eq := by
    rw [commands_append, before.commands_eq, behind.commands_eq]
    split <;> simp
  sent := by
    rw [proceedings_append, exchanges_append, List.map_append, before.sent, behind.sent,
      List.map_append]
  origin := by
    intro request member
    rcases List.mem_append.mp member with earlier | later
    · obtain ⟨profile, read, made⟩ := before.origin request earlier
      exact ⟨profile, List.mem_append_left _ read, made⟩
    · obtain ⟨profile, read, made⟩ := behind.origin request later
      exact ⟨profile, List.mem_append_right _ read, made⟩

/-- A request that has been built is shown once and sent once. -/
theorem Hands.sending (trial : Trial) {profile : Profile} {request : Http.Request}
    (built : profile.requestOf call options = .ok request) (reply : Http.Reply) :
    Hands client call options (sending client options trial profile request reply) [request] where
  commands_eq := commands_sending ..
  sent := by rw [proceedings_sending]; rfl
  origin := List.forall_mem_singleton.mpr ⟨profile, List.mem_cons_self, built⟩

theorem Hands.log (level : LogLevel) (message : String) {steps : List Step}
    {built : List Http.Request} (hands : Hands client call options steps built) :
    Hands client call options (Step.recorded (.log level message) :: steps) built := by
  have silent : Hands client call options [Step.recorded (.log level message)] [] :=
    .of_silent rfl rfl
  exact silent.append hands

theorem LoginCourse.hands {steps : List Step} {result : Except (Halt LoginError) Unit}
    (course : LoginCourse client steps result) : Hands client call options steps [] :=
  .of_silent course.silent course.commands_eq

theorem CredentialCourse.hands {steps : List Step} {result : Except (Halt LoginError) Unit}
    (course : CredentialCourse client steps result) : Hands client call options steps [] :=
  .of_silent course.silent course.commands_eq

theorem LastTrial.hands {trial : Trial} {steps : List Step}
    {result : Except CallError Http.Response}
    (course : LastTrial client call options trial steps result) :
    ∃ built, Hands client call options steps built := by
  cases course with
  | failed exchange =>
    cases exchange with
    | unbuilt refused => exact ⟨[], .of_silent rfl rfl⟩
    | unanswered built failed =>
      exact ⟨_, (Hands.sending trial built _).append (.of_silent (by simp [exchanges]) (by simp))⟩
  | settled built final =>
    exact ⟨_, (Hands.sending trial built _).append (.of_silent (by simp [exchanges]) (by simp))⟩

theorem RefusedTrial.hands {steps : List Step} {request : Http.Request}
    {response : Http.Response} (course : RefusedTrial client call options steps request response) :
    Hands client call options steps [request] := by
  cases course with
  | refused built status =>
    exact (Hands.sending .first built _).append (.of_silent (by simp [exchanges]) (by simp))

theorem ResponseCourse.hands {steps : List Step} {result : Except CallError Http.Response}
    (course : ResponseCourse client call options steps result) :
    ∃ built, Hands client call options steps built := by
  cases course with
  | unauthenticated credential => exact ⟨[], credential.hands⟩
  | once credential trial =>
    obtain ⟨built, hands⟩ := trial.hands
    exact ⟨_, credential.hands.append hands⟩
  | unrefreshed message credential first login =>
    exact ⟨_, credential.hands.append (first.hands.append (login.hands.log _ _))⟩
  | twice message retry credential first refresh trial =>
    obtain ⟨built, hands⟩ := trial.hands
    exact ⟨_, credential.hands.append
      (first.hands.append ((refresh.hands.append (hands.log _ _)).log _ _))⟩

/-- One command is shown for every request that is sent, in every run of a call. Showing and
sending stand next to each other in each trial, and nothing between them can fail. -/
theorem Course.hands {steps : List Step} {outcome : CallOptions × Except CallError Payload}
    (course : Course client call options steps outcome) :
    ∃ built, Hands client call options steps built := by
  obtain ⟨message, first, handling, result, rfl, response, handled⟩ := course.parts
  obtain ⟨built, hands⟩ := response.hands
  have silent : exchanges (proceedings handling) = [] := by rw [finishing_proceedings handled]; rfl
  exact ⟨_, (hands.append (.of_silent silent (finishing_commands handled))).log _ _⟩

theorem Hands.built_of_mem {steps : List Step} {built : List Http.Request}
    (hands : Hands client call options steps built) {request : Http.Request} {reply : Http.Reply}
    (sent : (request, reply) ∈ exchanges (proceedings steps)) :
    ∃ profile made, Profile.requestOf profile call options = .ok made ∧
      request = made.sentBy client.userAgent := by
  have among : request ∈ (exchanges (proceedings steps)).map (·.1) := List.mem_map_of_mem sent
  rw [hands.sent] at among
  obtain ⟨made, member, same⟩ := List.mem_map.mp among
  obtain ⟨profile, -, known⟩ := hands.origin made member
  exact ⟨profile, made, known, same.symm⟩

/-- Every request that is sent in a run of a call has been built of a profile. -/
theorem built_of_execute {world : World} {request : Http.Request} {reply : Http.Reply}
    (sent : (request, reply) ∈
      exchanges (proceedings (world.steps (execute client call options)))) :
    ∃ profile made, Profile.requestOf profile call options = .ok made ∧
      request = made.sentBy client.userAgent := by
  obtain ⟨built, hands⟩ := (Course.of_runs (world.runs_steps (execute client call options))).hands
  exact hands.built_of_mem sent

/-- Where no request can be built, a trial reads the profile and does nothing else. -/
theorem exchange_unbuilt {world : World} {error : CallError}
    (refused : world.profile.requestOf call options = .error error) (trial : Trial) :
    world.steps (exchange client call options trial).run = [⟨.readProfile, world.profile⟩] := by
  have course := ExchangeCourse.of_runs (world.runs_steps (exchange client call options trial).run)
  have allows := world.allows_steps (exchange client call options trial).run
  generalize world.steps (exchange client call options trial).run = steps at course allows
  generalize (world.run (exchange client call options trial).run).1 = result at course
  cases course with
  | unbuilt _ => rw [← World.profile_of_allows allows]
  | unanswered built failed =>
    obtain rfl := World.profile_of_allows allows
    rw [refused] at built
    cases built
  | answered built =>
    obtain rfl := World.profile_of_allows allows
    rw [refused] at built
    cases built

end Commands

section Watchers

/-- What those who watch are told is no login and no exchange. -/
theorem proceedings_of_notice {step : Step} (notice : step.isNotice = true) :
    proceedings [step] = [] := by
  obtain ⟨effect, outcome⟩ := step
  cases effect with
  | record event =>
    cases event with
    | progress event => rfl
    | log level message => rfl
    | command text => rfl
    | _ => cases notice
  | _ => cases notice

theorem proceedings_filter_notices (steps : List Step) :
    proceedings (steps.filter (!·.isNotice)) = proceedings steps := by
  induction steps with
  | nil => rfl
  | cons step rest ih =>
    rw [← List.singleton_append, List.filter_append, proceedings_append,
      proceedings_append, ih]
    cases notice : step.isNotice with
    | true =>
      rw [List.filter_cons_of_neg (by simp [notice]), proceedings_of_notice notice]
      rfl
    | false => rw [List.filter_cons_of_pos (by simp [notice]), List.filter_nil]

/-- What a call has in common with the same call before others who watch. -/
structure SameCourse (client other : Client) (world : World) (call : Call)
    (options watched : CallOptions) : Prop where
  result : (world.run (execute other call watched)).1.2 =
    (world.run (execute client call options)).1.2
  responseHeaders : (world.run (execute other call watched)).1.1.responseHeaders =
    (world.run (execute client call options)).1.1.responseHeaders
  /-- The same requests are sent and the same logins are made, in the same order. -/
  proceedings : proceedings (world.steps (execute other call watched)) =
    proceedings (world.steps (execute client call options))
  /-- So is everything else that is done. -/
  done : (world.steps (execute other call watched)).filter (!·.isNotice) =
    (world.steps (execute client call options)).filter (!·.isNotice)
  /-- The profile and the files are left the same, and so is what has arrived at the remote
  side. -/
  surroundings : (world.run (execute other call watched)).2.unseen =
    (world.run (execute client call options)).2.unseen

/-- A call goes the same way whoever watches it, and whatever is expected of it. Result,
surroundings and all steps that do something are those of the call that nobody watches. -/
theorem sameCourse (client : Client) (world : World) (call : Call) (options : CallOptions)
    (commands : CommandLog) (quiet : Bool) (expected : List Http.Status) :
    SameCourse client { client with commands } world call options
      { options with quiet, expected } := by
  obtain ⟨given, surroundings, done⟩ := @run_execute_congr client { client with commands } options
    { options with quiet, expected } rfl rfl rfl rfl world call
  obtain ⟨responseHeaders, result⟩ := Prod.mk.inj given
  refine ⟨result, responseHeaders, ?_, done, surroundings⟩
  rw [← proceedings_filter_notices, done, proceedings_filter_notices]

end Watchers

section Expected

variable {client : Client} {call : Call} {options : CallOptions}

theorem LastTrial.noted {trial : Trial} {steps : List Step} {error : StatusError}
    (course : LastTrial client call options trial steps (.error (.status error))) :
    [Step.recorded (failureNote options error.status)] <:+ steps := by
  generalize ended : (.error (.status error) : Except CallError Http.Response) = result at course
  cases course with
  | failed exchange =>
    cases ended
    cases exchange with
    | unbuilt refused => cases Profile.requestOf_unmade refused
    | @unanswered profile request reply _ built failed => cases reply <;> cases failed
  | @settled profile request response built final =>
    unfold verdict at ended
    split at ended
    · cases ended
    · rename_i rejected
      cases ended
      rw [closing, if_neg rejected, List.map_append, StatusError.classify_status]
      exact (List.suffix_append _ _).trans (List.suffix_append _ _)

/-- A call that fails by the status of its response notes that at its end. -/
theorem ResponseCourse.noted {steps : List Step} {error : StatusError}
    (course : ResponseCourse client call options steps (.error (.status error))) :
    [Step.recorded (failureNote options error.status)] <:+ steps := by
  generalize ended : (.error (.status error) : Except CallError Http.Response) = result at course
  cases course with
  | @unauthenticated steps halt credential => cases halt <;> cases ended
  | once credential trial =>
    subst ended
    exact trial.noted.trans (List.suffix_append _ _)
  | @unrefreshed message before refused steps request response halt credential first login =>
    cases halt <;> cases ended
  | @twice message retry before refused login steps request response result credential first refresh
      trial =>
    subst ended
    have last : steps <:+ before ++ (refused ++ Step.recorded (.log .warning message) ::
        (login ++ Step.recorded (.log .info retry) :: steps)) :=
      ⟨before ++ (refused ++ Step.recorded (.log .warning message) ::
        (login ++ [Step.recorded (.log .info retry)])), by simp⟩
    exact trial.noted.trans last

/-- A call that fails by the status of its response has nothing behind the note of that: the
response is handled only where it is wanted. -/
theorem Course.noted {steps : List Step} {outcome : CallOptions × Except CallError Payload}
    (course : Course client call options steps outcome) {error : StatusError}
    (failed : outcome.2 = .error (.status error)) :
    [Step.recorded (failureNote options error.status)] <:+ steps := by
  obtain ⟨message, first, handling, result, rfl, response, handled⟩ := course.parts
  cases result with
  | error why =>
    obtain ⟨rfl, rfl⟩ := Program.runs_pure_iff.mp handled
    cases failed
    rw [List.append_nil]
    exact response.noted.trans (List.suffix_cons _ _)
  | ok received =>
    obtain ⟨early, payload, late, rfl, payload_runs, done⟩ := Program.runs_bind_iff.mp handled
    obtain ⟨rfl, rfl⟩ := Program.runs_pure_iff.mp done
    obtain rfl : payload = .error (.status error) := failed
    rcases Payload.ofResponse_error payload_runs with ⟨misuse, same⟩ | ⟨path, fault, same⟩
    · cases same
    · cases same

/-- Two attempts that take the same steps and come to the same, unless they fail by a
status. Then each of them ends with a note on that, and these may differ. As the note comes
last, nothing can depend on it. -/
def NotesApart {α : Type} (note otherNote : Http.Status → Event)
    (attempt other : Attempt CallError α) : Prop :=
  ∀ world : World, (world.run other.run).1 = (world.run attempt.run).1 ∧
    (world.steps other.run = world.steps attempt.run ∨ ∃ before error,
      (world.run attempt.run).1 = .error (.status error) ∧
        world.steps attempt.run = before ++ [Step.recorded (note error.status)] ∧
        world.steps other.run = before ++ [Step.recorded (otherNote error.status)])

variable {α β : Type} {note otherNote : Http.Status → Event}

theorem NotesApart.refl (attempt : Attempt CallError α) :
    NotesApart note otherNote attempt attempt := fun _ => ⟨rfl, Or.inl rfl⟩

theorem NotesApart.behind {attempt : Attempt CallError β} {next other : β → Attempt CallError α}
    (later : ∀ value, NotesApart note otherNote (next value) (other value)) :
    NotesApart note otherNote (attempt >>= next) (attempt >>= other) := by
  intro world
  simp only [ExceptT.run_bind, World.run_bind, World.steps_bind]
  cases (world.run attempt.run).1 with
  | error error => exact ⟨rfl, Or.inl rfl⟩
  | ok value =>
    obtain ⟨same, alike | ⟨before, error, failed, noted, otherwise⟩⟩ :=
      later value (world.run attempt.run).2
    · exact ⟨same, Or.inl (congrArg _ alike)⟩
    · refine ⟨same, Or.inr ⟨world.steps attempt.run ++ before, error, failed, ?_, ?_⟩⟩
      · rw [List.append_assoc, ← noted]
      · rw [List.append_assoc, ← otherwise]

/-- Nothing follows the note. -/
theorem NotesApart.before {attempt other : Attempt CallError β}
    (apart : NotesApart note otherNote attempt other) (next : β → Attempt CallError α) :
    NotesApart note otherNote (attempt >>= next) (other >>= next) := by
  intro world
  simp only [ExceptT.run_bind, World.run_bind, World.steps_bind]
  obtain ⟨same, alike | ⟨before, error, failed, noted, otherwise⟩⟩ := apart world
  · have reached : (world.run other.run).2 = (world.run attempt.run).2 := by
      rw [← World.after_steps, ← World.after_steps, alike]
    rw [same, alike, reached]
    exact ⟨rfl, Or.inl rfl⟩
  · rw [same, failed]
    refine ⟨rfl, Or.inr ⟨before, error, rfl, ?_, ?_⟩⟩
    · exact (List.append_nil _).trans noted
    · exact (List.append_nil _).trans otherwise

theorem reject_eq (options : CallOptions) (response : Http.Response) :
    reject options response = (do
      stopIndicator options (.finished false)
      Program.record (failureNote options response.status)
      throw (.status (.classify response.status response.body))) := by
  unfold reject failureNote
  cases options.expected.contains response.status <;> rfl

theorem reject_apart (options : CallOptions) (expected : List Http.Status)
    (response : Http.Response) :
    NotesApart (failureNote options) (failureNote { options with expected }) (reject options response)
      (reject { options with expected } response) := by
  rw [reject_eq, reject_eq]
  refine .behind fun _ world => ⟨rfl, Or.inr ⟨[], _, rfl, ?_, ?_⟩⟩
  · rw [StatusError.classify_status]
    rfl
  · rw [StatusError.classify_status]
    rfl

theorem response_apart (client : Client) (call : Call) (options : CallOptions)
    (expected : List Http.Status) :
    NotesApart (failureNote options) (failureNote { options with expected })
      (response client call options) (response client call { options with expected }) := by
  unfold response
  refine .behind fun _ => .behind fun first => ?_
  cases Transition.of .first first.status with
  | succeed => exact .refl _
  | fail => exact reject_apart options expected first
  | refreshAndRetry =>
    refine .behind fun _ => .behind fun _ => .behind fun _ => .behind fun second => ?_
    cases Transition.of .afterRefresh second.status with
    | succeed => exact .refl _
    | _ => exact reject_apart options expected second

/-- What a call gives is what is made of its response. -/
theorem execute_result (client : Client) (call : Call) (options : CallOptions) :
    Prod.snd <$> execute client call options =
      Program.log .info "Calling the observability platform API" >>= fun _ =>
        (response client call options >>= Payload.ofResponse call.method options.headers).run := by
  unfold execute
  simp only [map_eq_pure_bind, bind_assoc, ExceptT.run_bind]
  refine congrArg _ (funext fun _ => congrArg _ (funext fun result => ?_))
  cases result with
  | error error => rfl
  | ok received => exact (bind_assoc ..).trans (bind_pure _)

/-- The status by which a call has failed. -/
def failedStatus? : Except CallError Payload → Option Http.Status
  | .error error => error.status?
  | .ok _ => none

theorem failedStatus?_eq_some_iff {result : Except CallError Payload} {status : Http.Status} :
    failedStatus? result = some status ↔
      ∃ error, result = .error (.status error) ∧ error.status = status := by
  constructor
  · intro failed
    cases result with
    | ok payload => cases failed
    | error error =>
      cases error with
      | status error => exact ⟨error, rfl, Option.some.inj failed⟩
      | _ => cases failed
  · rintro ⟨error, rfl, rfl⟩
    rfl

/-- What becomes of the steps of a call where other statuses are expected. -/
structure NotedOtherwise (client : Client) (world : World) (call : Call)
    (options other : CallOptions) : Prop where
  /-- A call that fails by a status notes that in its last step. No other step differs. -/
  failed : ∀ status, failedStatus? (world.run (execute client call options)).1.2 = some status →
    ∃ before,
      world.steps (execute client call options) =
        before ++ [Step.recorded (failureNote options status)] ∧
      world.steps (execute client call other) =
        before ++ [Step.recorded (failureNote other status)]
  others : failedStatus? (world.run (execute client call options)).1.2 = none →
    world.steps (execute client call other) = world.steps (execute client call options)

/-- The statuses that are expected decide how the failure of a call is noted, and nothing
else. They are looked at in one place, which is the last step of a call. -/
theorem notedOtherwise (client : Client) (world : World) (call : Call) (options : CallOptions)
    (expected : List Http.Status) :
    NotedOtherwise client world call options { options with expected } := by
  let noting := Program.log .info "Calling the observability platform API"
  let after := (world.run noting).2
  have steps (options : CallOptions) : world.steps (execute client call options) =
      world.steps noting ++ after.steps (response client call options >>=
        Payload.ofResponse call.method options.headers).run := by
    rw [← World.steps_map world Prod.snd, execute_result, World.steps_bind]
  have result : (world.run (execute client call options)).1.2 = (after.run
      (response client call options >>= Payload.ofResponse call.method options.headers).run).1 := by
    have known := congrArg (world.run · |>.1) (execute_result client call options)
    rwa [World.run_map, World.run_bind] at known
  obtain ⟨same, alike | ⟨before, error, known, noted, otherwise⟩⟩ :=
    (response_apart client call options expected).before
      (Payload.ofResponse call.method options.headers) after
  · have equal : world.steps (execute client call { options with expected }) =
        world.steps (execute client call options) := by
      rw [steps, steps, alike]
    refine ⟨fun status failed => ?_, fun _ => equal⟩
    obtain ⟨error, refused, rfl⟩ := failedStatus?_eq_some_iff.mp failed
    have refusedToo :=
      (sameCourse client world call options client.commands options.quiet expected).result.trans refused
    obtain ⟨before, noted⟩ := (Course.of_runs (world.runs_steps _)).noted refused
    obtain ⟨beforeToo, notedToo⟩ := (Course.of_runs (world.runs_steps _)).noted refusedToo
    have alike := notedToo.trans (equal.trans noted.symm)
    obtain ⟨rfl, -⟩ := List.append_inj' alike rfl
    exact ⟨beforeToo, noted.symm, notedToo.symm⟩
  · have refused : failedStatus? (world.run (execute client call options)).1.2 =
        some error.status := failedStatus?_eq_some_iff.mpr ⟨error, result.trans known, rfl⟩
    refine ⟨fun status failed => ?_, fun other => ?_⟩
    · obtain rfl := Option.some.inj (refused.symm.trans failed)
      refine ⟨world.steps noting ++ before, ?_, ?_⟩
      · rw [steps, noted, List.append_assoc]
      · rw [steps, otherwise, List.append_assoc]
    · cases refused.symm.trans other

end Expected

/-- A quiet indicator, the statuses that are expected and the commands that are shown are
for those who watch a call, and have no other part in it. Each is compared over the whole
call, and what becomes of the steps is said as well as what becomes of the result. -/
structure ObserversOnly (client : Client) (world : World) (call : Call) (options : CallOptions) :
    Prop where
  same : ∀ commands quiet expected, SameCourse client { client with commands } world call options
    { options with quiet, expected }
  /-- Where commands are shown, there is one for every request that is sent, in order. -/
  shown : ∃ built, Hands client call options (world.steps (execute client call options)) built
  /-- There is none for a request that cannot be built. -/
  unbuilt : ∀ (world : World) trial error,
    world.profile.requestOf call options = .error error →
      world.steps (exchange client call options trial).run = [⟨.readProfile, world.profile⟩]
  /-- The statuses that are expected only decide how a failure is noted. -/
  noted : ∀ expected, NotedOtherwise client world call options { options with expected }

/-- Those who watch a call have no part in it, in whatever world it is made. Telling them is
left out of both calls, which are then one program; what is told is counted along the
courses of a call. -/
theorem observers_only (client : Client) (world : World) (call : Call) (options : CallOptions) :
    ObserversOnly client world call options where
  same := sameCourse client world call options
  shown := (Course.of_runs (world.runs_steps _)).hands
  unbuilt := fun _ trial _ refused => exchange_unbuilt refused trial
  noted := notedOtherwise client world call options

/-- Of a call that is refused twice both commands are shown, and an expected refusal is noted as
such at the end. -/
theorem observers_only_refused_twice :
    (commands (refusingWorld.steps (execute .handing .forObjects {}))).length = 2 ∧
    ∃ before,
      refusingWorld.steps (execute .handing .forObjects {}) =
        before ++ [Step.recorded (.log .error "Platform API call failed")] ∧
      refusingWorld.steps (execute .handing .forObjects { expected := [Http.forbidden] }) =
        before ++ [Step.recorded (.log .info "Platform API call failed with expected error")] := by
  have refused : failedStatus? (refusingWorld.run (execute .handing .forObjects {})).1.2 =
      some Http.forbidden := by decide +kernel
  obtain ⟨before, noted, otherwise⟩ :=
    ((observers_only .handing refusingWorld .forObjects {}).noted [Http.forbidden]).failed _ refused
  exact ⟨by decide +kernel, before, noted, otherwise⟩

end PlatformClient.Call
