import PlatformClient.Proofs.CallEndings
import PlatformClient.Proofs.CommandPlans
import PlatformClient.Proofs.PreparedRequests
import PlatformClient.Proofs.ResponseHandling

namespace PlatformClient

/-- A payload with which a presentation can do what it is for. -/
def Presentation.Takes : Presentation → Payload → Prop
  | .document, given => ∃ value, given.decode = .ok value
  | _, _ => True

theorem Presentation.present_eq_ok_iff {presentation : Presentation}
    {result : Except CallError Payload} :
    (∃ text, presentation.present result = .ok text) ↔
      ∃ payload, result = .ok payload ∧ presentation.Takes payload := by
  cases result with
  | error error => cases presentation <;> exact ⟨nofun, nofun⟩
  | ok given =>
    cases presentation with
    | document =>
      have read : Presentation.document.present (.ok given) = Command.shown given.decode := rfl
      rw [read]
      cases known : given.decode with
      | error error => simp [Command.shown, Takes, known, Except.mapError, Except.map]
      | ok value => simp [Command.shown, Takes, known, Except.mapError, Except.map]
    | _ => exact ⟨fun _ => ⟨given, rfl, trivial⟩, fun _ => ⟨_, rfl⟩⟩

namespace CommandError

theorem exitCode_mem (error : CommandError) :
    error.exitCode ∈ [failure, notFound, invalidInput,
      notAuthorized] := by
  unfold exitCode
  split
  · decide
  · split
    · decide
    · split
      · decide
      · split <;> decide
  · decide

theorem report_eq (error : CommandError) : ∃ text, error.report = "Error: " ++ text :=
  ⟨_, String.intercalate_cons_append⟩

theorem exitCode_status (status : Http.Status) (body : Bytes) :
    (call (.status (.classify status body))).exitCode =
      if status = Http.unauthorized ∨ status = Http.forbidden then notAuthorized
      else if status = Http.notFound then notFound
      else failure := by
  simp [exitCode, CallError.isAuthFailure, CallError.status?,
    Call.StatusError.classify_status]

theorem exitCode_of_ofResponse {method : Http.Method} {headers : CallerHeaders}
    {response : Http.Response} {steps : List Step} {error : CallError}
    (runs : (Payload.ofResponse method headers response).run.Runs steps (.error error)) :
    (call error).exitCode = failure := by
  rcases Payload.ofResponse_error runs with ⟨type, rfl⟩ | ⟨path, fault, rfl⟩
  · rfl
  · rfl

theorem exitCode_of_decode {payload : Payload} {error : CallError}
    (failed : payload.decode = .error error) :
    (call error).exitCode = failure := by
  cases payload with
  | document body =>
    simp only [Payload.decode] at failed
    split at failed <;> cases failed
    rfl
  | _ => cases failed

end CommandError

namespace Command

/-- The response that ends a command says that there is nothing. -/
def EndsNotFound (steps : List Step) : Prop :=
  ∃ request response, lastMoment? steps = some (.exchange request (.answered response)) ∧
    response.status = Http.notFound

/-- A login that fails ends a command, or a response that refuses the sender. The first refusal of
a token ends none. -/
def EndsNotAuthorized (steps : List Step) : Prop :=
  (∃ error, lastMoment? steps = some (.loginEnded (some (.failed error)))) ∨
  ∃ request response, lastMoment? steps = some (.exchange request (.answered response)) ∧
    (response.status = Http.unauthorized ∨
      response.status = Http.forbidden ∧ (exchanges (proceedings steps)).length = 2)

/-- A request cannot be put together of an address, a sender and headers, with the profile that is
read last. Neither a body that is against the rules for its type nor a profile whose address cannot
be read is meant. -/
def EndsUnbuilt (call : Call) (options : CallOptions) (steps : List Step) : Prop :=
  ∃ profile target fault, lastRead? steps = some profile ∧
    profile.requestOf call options = .error (.construction target fault)

theorem verdict_eq_error {response : Http.Response} {error : CallError}
    (failed : .error error = Call.verdict response) :
    error = .status (.classify response.status response.body) := by
  unfold Call.verdict at failed
  split at failed
  · cases failed
  · exact Except.error.inj failed

/-- The exit code of the failure of a call tells how its trials ended. Each end has its own
last moment, and each exit code belongs to some of these ends only. -/
theorem exitCode_of_trials {client : Client} {call : Call} {options : CallOptions}
    {steps : List Step} {error : CallError}
    (ends : Call.TrialsEnd client call options steps (.error error)) :
    ((CommandError.call error).exitCode = CommandError.notFound ↔ EndsNotFound steps) ∧
    ((CommandError.call error).exitCode = CommandError.notAuthorized ↔ EndsNotAuthorized steps) ∧
    ((CommandError.call error).exitCode = CommandError.invalidInput ↔
      EndsUnbuilt call options steps) := by
  unfold EndsNotFound EndsNotAuthorized EndsUnbuilt
  cases ends with
  | unauthenticated which last idle =>
    have code : (CommandError.call error).exitCode = CommandError.notAuthorized := by
      rcases which with rfl | rfl <;> rfl
    simp +decide [code, last, idle]
  | @interrupted why last idle =>
    have code : (CommandError.call (.interrupted why call.method call.path)).exitCode =
      CommandError.failure := rfl
    simp +decide [code, last, idle]
  | @unbuilt profile _ read refused loggedIn =>
    -- Behind the last profile nothing is sent, and the login in front of it has succeeded.
    have unsent (request : Http.Request) (reply : Http.Reply) :
        lastMoment? steps ≠ some (.exchange request reply) := fun last => nomatch loggedIn _ last
    have allowed (error : LoginError) :
        lastMoment? steps ≠ some (.loginEnded (some (.failed error))) :=
      fun last => nomatch loggedIn _ last
    cases Profile.requestOf_unmade refused <;>
      simp +decide [unsent, allowed, read, refused, CommandError.exitCode, CallError.isAuthFailure,
        CallError.status?]
  | @unanswered request reply _ failed last idle =>
    have code : (CommandError.call error).exitCode = CommandError.failure := by
      cases reply with
      | answered response => cases failed
      | _ =>
        cases failed
        rfl
    have broken (response : Http.Response) : reply ≠ .answered response := by
      rintro rfl
      cases failed
    simp +decide [code, last, idle, broken]
  | @answered request response _ decided last second idle =>
    have code := CommandError.exitCode_status response.status response.body
    rw [← verdict_eq_error decided] at code
    by_cases unknown : response.status = Http.unauthorized
    · simp +decide [code, unknown, last, idle]
    by_cases forbidden : response.status = Http.forbidden
    · simp +decide [code, forbidden, last, idle, second forbidden]
    by_cases missing : response.status = Http.notFound
    · simp +decide [code, missing, last, idle]
    · simp +decide [code, unknown, forbidden, missing, last, idle]

/-- A response that is wanted ends a command in none of these ways. Its status is neither of
those that have an exit code of their own. -/
theorem not_ends_of_accepted {call : Call} {options : CallOptions} {steps : List Step}
    {request : Http.Request} {response : Http.Response}
    (last : lastMoment? steps = some (.exchange request (.answered response)))
    (idle : lastRead? steps = none) (accepted : Call.accepts response.status = true) :
    ¬ EndsNotFound steps ∧ ¬ EndsNotAuthorized steps ∧ ¬ EndsUnbuilt call options steps := by
  have other {status : Http.Status} (rejected : Call.accepts status = false) :
      response.status ≠ status := by
    rintro rfl
    rw [rejected] at accepted
    cases accepted
  have missing : response.status ≠ Http.notFound := other (by decide)
  have unauthorized : response.status ≠ Http.unauthorized := other (by decide)
  have forbidden : response.status ≠ Http.forbidden := other (by decide)
  simp [EndsNotFound, EndsNotAuthorized, EndsUnbuilt, last, idle, missing, unauthorized, forbidden]

/-- What is wrong with a response that is wanted has no exit code of its own. -/
theorem exitCode_of_payload {plan : Plan} {response : Http.Response} {steps : List Step}
    {payload : Except CallError Payload} {error : CommandError}
    (runs : (Payload.ofResponse plan.call.method plan.options.headers response).run.Runs steps
      payload)
    (failed : plan.presentation.present payload = .error error) :
    error.exitCode = CommandError.failure := by
  cases payload with
  | error why =>
    have same : error = .call why := by
      cases known : plan.presentation <;> rw [known] at failed <;> cases failed <;> rfl
    rw [same, CommandError.exitCode_of_ofResponse runs]
  | ok given =>
    cases known : plan.presentation with
    | document =>
      rw [known] at failed
      change shown given.decode = _ at failed
      cases read : given.decode with
      | error why =>
        rw [read] at failed
        cases failed
        exact CommandError.exitCode_of_decode read
      | ok value =>
        rw [read] at failed
        cases failed
    | _ =>
      rw [known] at failed
      cases failed

theorem exitCode_eq_success_iff {result : Result} :
    (outcome result).exitCode = CommandError.success ↔ ∃ text, result = .ok text := by
  rcases result with error | _ | text
  · have code : (outcome (.error error)).exitCode = error.exitCode := rfl
    have none := CommandError.exitCode_mem error
    refine ⟨fun same => ?_, nofun⟩
    rw [code] at same
    rw [same] at none
    exact absurd none (by decide)
  · exact ⟨fun _ => ⟨_, rfl⟩, fun _ => rfl⟩
  · exact ⟨fun _ => ⟨_, rfl⟩, fun _ => rfl⟩

/-- What is read in front of a call has no part in how a command ends. These steps are no
moments of a call. -/
theorem ends_append_iff {reading calling : List Step} (call : Call) (options : CallOptions)
    (reads : ∀ step ∈ reading, step.effect.isLocal = true) (nonempty : calling ≠ []) :
    (EndsNotFound (reading ++ calling) ↔ EndsNotFound calling) ∧
    (EndsNotAuthorized (reading ++ calling) ↔ EndsNotAuthorized calling) ∧
    (EndsUnbuilt call options (reading ++ calling) ↔ EndsUnbuilt call options calling) := by
  have order : proceedings (reading ++ calling) = proceedings calling := by
    rw [proceedings_append, proceedings_of_local reads, List.nil_append]
  have last : lastMoment? (reading ++ calling) = lastMoment? calling := congrArg List.getLast? order
  simp only [EndsNotFound, EndsNotAuthorized, EndsUnbuilt, last, order,
    lastRead?_append _ nonempty, and_self]

section

variable (client : Client) (world : World) (quiet : Bool) (now : Nat) (command : Command)

/-- A login succeeds, or a call does and what it gives can be presented. -/
def Succeeds : Prop :=
  (command = .login ∧
    lastMoment? (world.steps (command.run client quiet now)) = some (.loginEnded none)) ∨
  ∃ plan payload, command.plan? quiet now world.files = .ok (some plan) ∧
    (world.run (Call.execute client plan.call plan.options)).1.2 = .ok payload ∧
    plan.presentation.Takes payload

/-- What is given is refused, or a request cannot be put together. -/
def EndsInvalid : Prop :=
  command.Rejected world.files ∨
  ∃ plan, command.plan? quiet now world.files = .ok (some plan) ∧
    EndsUnbuilt plan.call plan.options (world.steps (command.run client quiet now))

/-- What the exit code of a command, its output and its report tell. Every code stands for
one way to end, which is described by what has been sent and received and not by the error. -/
structure ExitCodes (result : Result) : Prop where
  success_iff : (outcome result).exitCode = CommandError.success ↔
    command.Succeeds client world quiet now
  notFound_iff : (outcome result).exitCode = CommandError.notFound ↔
    EndsNotFound (world.steps (command.run client quiet now))
  notAuthorized_iff : (outcome result).exitCode = CommandError.notAuthorized ↔
    EndsNotAuthorized (world.steps (command.run client quiet now))
  invalidInput_iff : (outcome result).exitCode = CommandError.invalidInput ↔
    command.EndsInvalid client world quiet now
  failure_iff : (outcome result).exitCode = CommandError.failure ↔
    ¬ command.Succeeds client world quiet now ∧
    ¬ EndsNotFound (world.steps (command.run client quiet now)) ∧
    ¬ EndsNotAuthorized (world.steps (command.run client quiet now)) ∧
    ¬ command.EndsInvalid client world quiet now
  /-- A failure is reported once, and nothing else is written. -/
  failed : (outcome result).exitCode ≠ CommandError.success →
    (outcome result).output = "" ∧ ∃ error text, result = .error error ∧
      (outcome result).errors = error.report ++ "\n" ∧ error.report = "Error: " ++ text
  succeeded : (outcome result).exitCode = CommandError.success → (outcome result).errors = ""
  /-- The call of a command is the one for which it stands. -/
  performed : ∀ plan, command.plan? quiet now world.files = .ok (some plan) →
    ∃ reading, (∀ step ∈ reading, step.effect.isLocal = true) ∧
      world.steps (command.run client quiet now) =
        reading ++ world.steps (Call.execute client plan.call plan.options)
  /-- It makes no difference which failures are expected. -/
  expected : ∀ codes, command.ReadsExpected → (command.expecting codes).ReadsExpected →
    (world.run ((command.expecting codes).run client quiet now)).1 = some result

variable {client world quiet now command}

/-- The four reasons that an exit code can have leave one code for every other failure. It
is enough to know when each of the four is given. -/
theorem ExitCodes.of_iffs {result : Result}
    (success : (∃ text, result = .ok text) ↔ command.Succeeds client world quiet now)
    (notFound : (outcome result).exitCode = CommandError.notFound ↔
      EndsNotFound (world.steps (command.run client quiet now)))
    (notAuthorized : (outcome result).exitCode = CommandError.notAuthorized ↔
      EndsNotAuthorized (world.steps (command.run client quiet now)))
    (invalidInput : (outcome result).exitCode = CommandError.invalidInput ↔
      command.EndsInvalid client world quiet now)
    (run : (world.run (command.run client quiet now)).1 = some result) :
    command.ExitCodes client world quiet now result where
  success_iff := exitCode_eq_success_iff.trans success
  notFound_iff := notFound
  notAuthorized_iff := notAuthorized
  invalidInput_iff := invalidInput
  failure_iff := by
    rw [← success, ← exitCode_eq_success_iff, ← notFound, ← notAuthorized, ← invalidInput]
    constructor
    · intro code
      simp +decide [code]
    · rintro ⟨unsuccessful, others⟩
      rcases result with error | _ | text
      · have codes := CommandError.exitCode_mem error
        have code : (outcome (.error error)).exitCode = error.exitCode := rfl
        rw [code] at others ⊢
        simp only [List.mem_cons, List.not_mem_nil, or_false] at codes
        tauto
      · exact absurd rfl unsuccessful
      · exact absurd rfl unsuccessful
  failed := by
    intro unsuccessful
    rcases result with error | _ | text
    · obtain ⟨text, report⟩ := CommandError.report_eq error
      exact ⟨rfl, error, text, rfl, rfl, report⟩
    · exact absurd rfl unsuccessful
    · exact absurd rfl unsuccessful
  succeeded := by
    intro code
    obtain ⟨text, rfl⟩ := exitCode_eq_success_iff.mp code
    cases text <;> rfl
  performed := by
    intro plan known
    have course := command.course client world quiet now
    rw [known] at course
    cases course with
    | planned reading run steps reads => exact ⟨reading, reads, steps⟩
  expected := fun codes reads others => (run_expecting reads others).trans run

/-- An end for which no exit code is kept is a success, or a failure like any other. -/
theorem ExitCodes.of_plain {result : Result}
    (plain : (outcome result).exitCode = CommandError.success ∨
      (outcome result).exitCode = CommandError.failure)
    (success : (∃ text, result = .ok text) ↔ command.Succeeds client world quiet now)
    (found : ¬ EndsNotFound (world.steps (command.run client quiet now)))
    (authorized : ¬ EndsNotAuthorized (world.steps (command.run client quiet now)))
    (valid : ¬ command.EndsInvalid client world quiet now)
    (run : (world.run (command.run client quiet now)).1 = some result) :
    command.ExitCodes client world quiet now result := by
  refine .of_iffs success ?_ ?_ ?_ run
  · rcases plain with code | code <;> simp +decide [code, found]
  · rcases plain with code | code <;> simp +decide [code, authorized]
  · rcases plain with code | code <;> simp +decide [code, valid]

theorem exitCodes_of_rejected {error : InputError}
    (known : command.plan? quiet now world.files = .error (.input error))
    (rejected : command.Rejected world.files) :
    ∃ result, (world.run (command.run client quiet now)).1 = some result ∧
      command.ExitCodes client world quiet now result := by
  have course := command.course client world quiet now
  rw [known] at course
  cases course with
  | rejected run reads =>
    have last : lastMoment? (world.steps (command.run client quiet now)) = none := by
      rw [lastMoment?, proceedings_of_local reads.isLocal]
      rfl
    have called : command ≠ .login := by
      rintro rfl
      cases known
    have code : (outcome (.error (.input error))).exitCode = CommandError.invalidInput := rfl
    have given : (world.run (command.run client quiet now)).1 = some (.error (.input error)) := by
      rw [run]
    refine ⟨_, given, .of_iffs ?_ ?_ ?_ ?_ given⟩
    · simp [Succeeds, known, called]
    · simp +decide [code, EndsNotFound, last]
    · simp +decide [code, EndsNotAuthorized, last]
    · simp [code, EndsInvalid, rejected]

theorem exitCodes_of_login :
    ∃ result, (world.run (login.run client quiet now)).1 = some result ∧
      login.ExitCodes client world quiet now result := by
  have planless : login.plan? quiet now world.files = .ok none := rfl
  cases login.course client world quiet now with
  | @login halt result run steps ends =>
    have last : lastMoment? (world.steps (login.run client quiet now)) =
        some (.loginEnded halt) := by
      rw [lastMoment?, steps]
      rfl
    have valid : ¬ login.EndsInvalid client world quiet now := by
      simp [EndsInvalid, Rejected, planless]
    rcases halt with _ | error | why
    · obtain ⟨text, rfl⟩ := ends
      refine ⟨_, run, .of_plain (Or.inl rfl) ?_ ?_ ?_ valid run⟩
      · simp [Succeeds, last]
      · simp [EndsNotFound, last]
      · simp [EndsNotAuthorized, last]
    · obtain rfl := ends
      have code : (outcome (.error (.call (.login error)))).exitCode =
        CommandError.notAuthorized := rfl
      refine ⟨_, run, .of_iffs ?_ ?_ ?_ ?_ run⟩
      · simp [Succeeds, last, planless]
      · simp +decide [code, EndsNotFound, last]
      · simp [code, EndsNotAuthorized, last]
      · simp +decide [code, valid]
    · obtain rfl := ends
      refine ⟨_, run, .of_plain (Or.inr rfl) ?_ ?_ ?_ valid run⟩
      · simp [Succeeds, last, planless]
      · simp [EndsNotFound, last]
      · simp [EndsNotAuthorized, last]

theorem exitCodes_of_plan {plan : Plan}
    (known : command.plan? quiet now world.files = .ok (some plan))
    (accepted : ¬ command.Rejected world.files) :
    ∃ result, (world.run (command.run client quiet now)).1 = some result ∧
      command.ExitCodes client world quiet now result := by
  have course := command.course client world quiet now
  rw [known] at course
  cases course with
  | planned reading run steps reads =>
    have made := Call.Course.of_runs (world.runs_steps (Call.execute client plan.call plan.options))
    have nonempty : world.steps (Call.execute client plan.call plan.options) ≠ [] := by
      obtain ⟨message, first, handling, -, shape, -⟩ := made.parts
      exact shape ▸ List.cons_ne_nil _ _
    obtain ⟨notFound, notAuthorized, unbuilt⟩ := ends_append_iff plan.call plan.options
      reads nonempty
    rw [← steps] at notFound notAuthorized unbuilt
    have called : command ≠ .login := by
      rintro rfl
      cases known
    have success : (∃ text, plan.presentation.present
        (world.run (Call.execute client plan.call plan.options)).1.2 = .ok text) ↔
          command.Succeeds client world quiet now := by
      simp [Presentation.present_eq_ok_iff, Succeeds, known, called]
    have invalid : command.EndsInvalid client world quiet now ↔ EndsUnbuilt plan.call plan.options
        (world.steps (Call.execute client plan.call plan.options)) := by
      rw [← unbuilt]
      simp [EndsInvalid, accepted, known]
    refine ⟨_, run, ?_⟩
    -- The code tells how the trials ended, or else it is left to what is made of their response.
    rcases made.ends with ⟨error, failed, ends⟩ |
      ⟨request, response, handling, answered, idle, wanted, handled⟩
    · obtain ⟨missing, refused, unmade⟩ := exitCode_of_trials ends
      have result : plan.presentation.present
          (world.run (Call.execute client plan.call plan.options)).1.2 = .error (.call error) := by
        rw [failed]
        cases plan.presentation <;> rfl
      rw [result] at run success ⊢
      exact .of_iffs success (missing.trans notFound.symm) (refused.trans notAuthorized.symm)
        (unmade.trans invalid.symm) run
    · obtain ⟨found, authorized, built⟩ := not_ends_of_accepted answered idle wanted
      refine .of_plain ?_ success (mt notFound.mp found) (mt notAuthorized.mp authorized)
        (mt invalid.mp built) run
      rcases shown : plan.presentation.present
          (world.run (Call.execute client plan.call plan.options)).1.2 with error | text
      · exact Or.inr (exitCode_of_payload handled shown)
      · exact Or.inl (exitCode_eq_success_iff.mpr ⟨text, rfl⟩)

end

/-- Every command that the clock allows ends with a result, whose exit code tells how it
ended. Nothing is assumed about the profile, the login, the remote side and the files. A
request that is against the rules for what is sent and a profile whose address cannot be
read are failures like any other. The last steps of a command are followed for each of its
ends, and in them the reasons for the codes exclude each other. -/
theorem exit_codes (client : Client) (world : World) (quiet : Bool) (now : Nat)
    (command : Command) (clock : command.OnClock now) :
    ∃ result, (world.run (command.run client quiet now)).1 = some result ∧
      command.ExitCodes client world quiet now result := by
  rcases plan?_cases world.files clock with ⟨rfl, -⟩ | ⟨error, known, rejected⟩ |
    ⟨plan, known, accepted⟩
  · exact exitCodes_of_login
  · exact exitCodes_of_rejected known rejected
  · exact exitCodes_of_plan known accepted

/-- The second refusal of the token is what the exit code tells, though it is expected. -/
theorem exit_codes_refused_twice :
    (get "/objects" none { expected := [403], timeout := some 5 }).OnClock 0 ∧
    (refusingWorld.run ((get "/objects" none { expected := [403], timeout := some 5 }).run
      .handing false 0)).1.map (outcome · |>.exitCode) = some CommandError.notAuthorized ∧
    ∃ result, (refusingWorld.run ((get "/objects" none
        { expected := [403], timeout := some 5 }).run .handing false 0)).1 = some result ∧
      (get "/objects" none { expected := [403], timeout := some 5 }).ExitCodes .handing
        refusingWorld false 0 result := by
  have clock : (get "/objects" none { expected := [403], timeout := some 5 }).OnClock 0 := by
    intro call seconds known limit
    cases known
    cases limit
    decide
  exact ⟨clock, by decide +kernel, exit_codes .handing refusingWorld false 0 _ clock⟩

end Command

end PlatformClient
