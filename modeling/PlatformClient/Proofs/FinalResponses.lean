import PlatformClient.Proofs.TransparentRefresh

namespace PlatformClient

/-- The response in a reply, if one has been received in full. -/
def Http.Reply.response? : Http.Reply → Option Http.Response
  | .answered response => some response
  | _ => none

/-- A login that writes no files. -/
def Client.SparesFiles (client : Client) : Prop :=
  (client.login.program client.userAgent).run.Uses (·.sparesFiles)

/-- The steps outside of logins. `inside` tells whether a login has begun that is not over.
A login may do anything, also write files, and what it does is no part of handling a
response. -/
def outsideLogins : (inside : Bool) → List Step → List Step
  | _, [] => []
  | inside, step :: rest =>
    match step.moment? with
    | some .loginBegun => outsideLogins true rest
    | some (.loginEnded _) => outsideLogins false rest
    | _ => if inside then outsideLogins inside rest else step :: outsideLogins inside rest

/-- The files that a call writes itself. What its logins write is theirs. -/
def ownWrites (steps : List Step) : List Step := writes (outsideLogins false steps)

theorem outsideLogins_append {first : List Step} (inside : Bool) (rest : List Step)
    (apart : (proceedings first).any Moment.isLogin = false) :
    outsideLogins inside (first ++ rest) =
      (if inside then [] else first) ++ outsideLogins inside rest := by
  induction first with
  | nil => cases inside <;> rfl
  | cons step first ih =>
    have split : proceedings (step :: first) = proceedings [step] ++ proceedings first :=
      proceedings_append [step] first
    rw [split, List.any_append, Bool.or_eq_false_iff] at apart
    have later := ih apart.2
    rw [List.cons_append, outsideLogins]
    -- Only the begin and the end of a login would change `inside`, and there is none of them.
    cases known : step.moment? with
    | none => cases inside <;> simp [later]
    | some moment =>
      cases moment with
      | loginBegun => simp [proceedings, moments, known, Moment.isIndication, Moment.isLogin] at apart
      | loginEnded halt =>
        simp [proceedings, moments, known, Moment.isIndication, Moment.isLogin] at apart
      | _ => cases inside <;> simp [later]

theorem ownWrites_of_apart {steps : List Step}
    (apart : (proceedings steps).any Moment.isLogin = false) : ownWrites steps = writes steps := by
  have alone := outsideLogins_append false [] apart
  rw [List.append_nil, if_neg Bool.false_ne_true, outsideLogins, List.append_nil] at alone
  rw [ownWrites, alone]

theorem ownWrites_append_of_spares {first : List Step} (rest : List Step)
    (apart : (proceedings first).any Moment.isLogin = false)
    (spares : ∀ step ∈ first, step.effect.sparesFiles = true) :
    ownWrites (first ++ rest) = ownWrites rest := by
  rw [ownWrites, outsideLogins_append false rest apart, if_neg Bool.false_ne_true, writes_append,
    writes_eq_nil spares, List.nil_append, ownWrites]

namespace Call

variable {client : Client} {call : Call} {options : CallOptions}

/-- The response with which a call ends: the one in its last exchange, where that was
received in full. A refusal that leads to another exchange is therefore none. -/
def final? (order : List Moment) : Option Http.Response :=
  (exchanges order).getLast?.bind (·.2.response?)

/-- The final response of a call, where its status is wanted. -/
def wanted? (order : List Moment) : Option Http.Response := (final? order).filter (accepts ·.status)

theorem toOption_verdict (response : Http.Response) :
    (verdict response).toOption = (some response).filter (accepts ·.status) := by
  rw [verdict, Option.filter]
  split <;> rfl

/-- The trial that decides a call gives what is wanted, or fails. Its verdict on the
response is the same as whether the status is wanted. -/
theorem LastTrial.wanted {trial : Trial} {steps : List Step}
    {result : Except CallError Http.Response} {before : List Moment}
    (course : LastTrial client call options trial steps result) (none : wanted? before = none) :
    wanted? (before ++ proceedings steps) = result.toOption := by
  cases course with
  | failed exchange =>
    cases exchange with
    | unbuilt refused =>
      rw [proceedings_readProfile]
      exact (congrArg wanted? (List.append_nil before)).trans none
    | @unanswered profile request reply error built failed =>
      have broken : reply.response? = Option.none := by
        cases reply with
        | answered response => cases failed
        | _ => rfl
      simp [wanted?, final?, exchanges, broken, Except.toOption]
  | @settled profile request response built final =>
    rw [toOption_verdict]
    simp [wanted?, final?, exchanges, Http.Reply.response?]

/-- A login has no response. -/
theorem FirstLogin.wanted {token : Bool} {login : List Moment}
    (credential : FirstLogin token login) : wanted? login = none := by
  cases credential <;> rfl

/-- A call has a response exactly where the last one is wanted. What a call comes to can so
be read off from its exchanges. -/
theorem ResponseCourse.wanted {steps : List Step} {result : Except CallError Http.Response}
    (course : ResponseCourse client call options steps result) :
    wanted? (proceedings steps) = result.toOption := by
  have forbidden : accepts Http.forbidden = false := by decide
  cases course with
  | unauthenticated credential =>
    obtain ⟨profile, -, ⟨halt, -, -, order⟩ | ⟨ok, -⟩⟩ := credential.found
    · rw [order]
      rfl
    · cases ok
  | once credential trial =>
    obtain ⟨profile, -, login⟩ := credential.found_ok
    rw [proceedings_append, trial.wanted login.wanted]
  | @unrefreshed message before refused steps request response halt credential first login =>
    have status : response.status = Http.forbidden := by cases first; assumption
    simp [first.proceedings_eq, login.proceedings_eq, wanted?, final?, exchanges, Http.Reply.response?,
      status, forbidden, Except.toOption]
  | @twice message retry before refused login steps request response result credential first refresh
      trial =>
    have status : response.status = Http.forbidden := by cases first; assumption
    have none : wanted? (proceedings (before ++ refused ++ login)) = none := by
      simp [first.proceedings_eq, refresh.proceedings_eq, wanted?, final?, exchanges, Http.Reply.response?,
        status, forbidden]
    rw [← trial.wanted none]
    simp

/-- The files of a login are not those of the call. -/
theorem LoginCourse.ownWrites_append {steps : List Step} {result : Except (Halt LoginError) Unit}
    (course : LoginCourse client steps result) (rest : List Step) :
    ownWrites (steps ++ rest) = ownWrites rest := by
  cases course with
  | @ended inner _ runs =>
    have silent := moments_of_incidental ((client.login.incidental client.userAgent).steps runs)
    have apart : (proceedings inner).any Moment.isLogin = false := by
      rw [proceedings, silent]
      rfl
    simp only [ownWrites, List.cons_append, List.append_assoc]
    change writes (outsideLogins true (inner ++ _)) = _
    rw [outsideLogins_append true _ apart]
    rfl

theorem CredentialCourse.ownWrites_append {steps : List Step}
    {result : Except (Halt LoginError) Unit} (course : CredentialCourse client steps result)
    (rest : List Step) : ownWrites (steps ++ rest) = ownWrites rest := by
  cases course with
  | cached token => rfl
  | obtained message missing login => exact login.ownWrites_append rest

theorem RefusedTrial.ownWrites_append {steps : List Step} {request : Http.Request}
    {response : Http.Response} (course : RefusedTrial client call options steps request response)
    (rest : List Step) : ownWrites (steps ++ rest) = ownWrites rest :=
  ownWrites_append_of_spares rest (by rw [course.proceedings_eq]; rfl)
    fun step member => (course.spares step member).2

theorem LastTrial.ownWrites_append {trial : Trial} {steps : List Step}
    {result : Except CallError Http.Response}
    (course : LastTrial client call options trial steps result) (rest : List Step) :
    ownWrites (steps ++ rest) = ownWrites rest :=
  ownWrites_append_of_spares rest course.lastExchange.no_login
    fun step member => (course.spares step member).2

/-- Until it has its response, a call writes no file. Its logins may, and their writes are
left out. -/
theorem ResponseCourse.ownWrites_append {steps : List Step}
    {result : Except CallError Http.Response}
    (course : ResponseCourse client call options steps result) (rest : List Step) :
    ownWrites (steps ++ rest) = ownWrites rest := by
  have logged : ∀ level message behind,
      ownWrites (Step.recorded (.log level message) :: behind) = ownWrites behind :=
    fun _ _ _ => rfl
  cases course with
  | unauthenticated credential => exact credential.ownWrites_append rest
  | once credential trial =>
    rw [List.append_assoc, credential.ownWrites_append, trial.ownWrites_append]
  | unrefreshed message credential first login =>
    rw [List.append_assoc, credential.ownWrites_append, List.append_assoc, first.ownWrites_append,
      List.cons_append, logged, login.ownWrites_append]
  | twice message retry credential first refresh trial =>
    rw [List.append_assoc, credential.ownWrites_append, List.append_assoc, first.ownWrites_append,
      List.cons_append, logged, List.append_assoc, refresh.ownWrites_append, List.cons_append,
      logged, trial.ownWrites_append]

theorem LoginCourse.spares_files {steps : List Step} {result : Except (Halt LoginError) Unit}
    (login : client.SparesFiles) (course : LoginCourse client steps result) :
    ∀ step ∈ steps, step.effect.sparesFiles = true := by
  cases course with
  | @ended inner _ runs =>
    refine List.forall_mem_cons.mpr ⟨rfl, List.forall_mem_append.mpr ⟨login.steps runs, ?_⟩⟩
    exact List.forall_mem_singleton.mpr rfl

theorem CredentialCourse.spares_files {steps : List Step} {result : Except (Halt LoginError) Unit}
    (login : client.SparesFiles) (course : CredentialCourse client steps result) :
    ∀ step ∈ steps, step.effect.sparesFiles = true := by
  cases course with
  | cached token => exact List.forall_mem_singleton.mpr rfl
  | obtained message missing course =>
    exact List.forall_mem_cons.mpr ⟨rfl, List.forall_mem_cons.mpr ⟨rfl, course.spares_files login⟩⟩

theorem ResponseCourse.spares_files {steps : List Step} {result : Except CallError Http.Response}
    (login : client.SparesFiles) (course : ResponseCourse client call options steps result) :
    ∀ step ∈ steps, step.effect.sparesFiles = true := by
  cases course with
  | unauthenticated credential => exact credential.spares_files login
  | once credential trial =>
    exact List.forall_mem_append.mpr
      ⟨credential.spares_files login, fun step member => (trial.spares step member).2⟩
  | unrefreshed message credential first refresh =>
    refine List.forall_mem_append.mpr ⟨credential.spares_files login, ?_⟩
    refine List.forall_mem_append.mpr ⟨fun step member => (first.spares step member).2, ?_⟩
    exact List.forall_mem_cons.mpr ⟨rfl, refresh.spares_files login⟩
  | twice message retry credential first refresh trial =>
    refine List.forall_mem_append.mpr ⟨credential.spares_files login, ?_⟩
    refine List.forall_mem_append.mpr ⟨fun step member => (first.spares step member).2, ?_⟩
    refine List.forall_mem_cons.mpr ⟨rfl, List.forall_mem_append.mpr
      ⟨refresh.spares_files login, ?_⟩⟩
    exact List.forall_mem_cons.mpr ⟨rfl, fun step member => (trial.spares step member).2⟩

theorem finishing_ownWrites {steps : List Step} {result : Except CallError Http.Response}
    {outcome : CallOptions × Except CallError Payload}
    (handled : (finishing call options result).Runs steps outcome) :
    ownWrites steps = writes steps :=
  ownWrites_of_apart (by rw [finishing_proceedings handled]; rfl)

/-- A call that fails before it has a response writes no file, and the options stay.
Otherwise the files that it writes are those that are written for its response. So handling
a response is all that is left to look at. -/
theorem Course.outcome_cases {steps : List Step} {outcome : CallOptions × Except CallError Payload}
    (course : Course client call options steps outcome) :
    (wanted? (proceedings steps) = none ∧ ownWrites steps = [] ∧
      ∃ error, outcome = (options, .error error)) ∨
    ∃ response handling, wanted? (proceedings steps) = some response ∧
      ownWrites steps = writes handling ∧
      outcome.1 = { options with responseHeaders := some response.headers } ∧
      (Payload.ofResponse call.method options.headers response).run.Runs handling outcome.2 := by
  obtain ⟨message, first, handling, result, rfl, response, handled⟩ := course.parts
  have order : wanted? (proceedings (Step.recorded (.log .info message) :: (first ++ handling))) =
      result.toOption := by
    rw [proceedings_log, proceedings_append, finishing_proceedings handled, List.append_nil,
      response.wanted]
  have own : ownWrites (Step.recorded (.log .info message) :: (first ++ handling)) =
      writes handling := by
    change ownWrites (first ++ handling) = _
    rw [response.ownWrites_append, finishing_ownWrites handled]
  cases result with
  | error error =>
    obtain ⟨rfl, rfl⟩ := Program.runs_pure_iff.mp handled
    exact Or.inl ⟨order, own, error, rfl⟩
  | ok received =>
    obtain ⟨early, payload, late, rfl, payload_runs, done⟩ := Program.runs_bind_iff.mp handled
    obtain ⟨rfl, rfl⟩ := Program.runs_pure_iff.mp done
    rw [List.append_nil] at own order
    rw [List.append_nil]
    exact Or.inr ⟨received, early, order, own, rfl, payload_runs⟩

/-- Where the login writes nothing, nothing is written but what the call writes itself. -/
theorem Course.writes_eq {steps : List Step} {outcome : CallOptions × Except CallError Payload}
    (login : client.SparesFiles) (course : Course client call options steps outcome) :
    writes steps = ownWrites steps := by
  obtain ⟨message, first, handling, result, rfl, response, handled⟩ := course.parts
  change writes (first ++ handling) = ownWrites (first ++ handling)
  rw [writes_append, writes_eq_nil (response.spares_files login), List.nil_append,
    response.ownWrites_append, finishing_ownWrites handled]

end Call

end PlatformClient
