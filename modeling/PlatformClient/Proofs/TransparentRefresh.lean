import PlatformClient.Proofs.RetryProtocol
import PlatformClient.Proofs.Surroundings

namespace PlatformClient

namespace Call

variable {client : Client} {call : Call} {options : CallOptions}

theorem Course.parts {steps : List Step} {outcome : CallOptions × Except CallError Payload}
    (course : Course client call options steps outcome) :
    ∃ message first handling result,
      steps = Step.recorded (.log .info message) :: (first ++ handling) ∧
        ResponseCourse client call options first result ∧
        (finishing call options result).Runs handling outcome := by
  cases course with
  | whole message response handled => exact ⟨message, _, _, _, rfl, response, handled⟩

/-- What becomes known writes nothing. -/
theorem recorded_spares (events : List Event) : ∀ step ∈ events.map Step.recorded,
    step.effect.sparesProfile = true ∧ step.effect.sparesFiles = true := by
  intro step member
  obtain ⟨event, -, rfl⟩ := List.mem_map.mp member
  exact ⟨rfl, rfl⟩

theorem sending_spares (trial : Trial) (profile : Profile) (request : Http.Request)
    (reply : Http.Reply) : ∀ step ∈ sending client options trial profile request reply,
      step.effect.sparesProfile = true ∧ step.effect.sparesFiles = true := by
  intro step member
  rw [sending, List.mem_cons, List.mem_append, List.mem_singleton] at member
  rcases member with rfl | early | rfl
  · exact ⟨rfl, rfl⟩
  · exact recorded_spares _ step early
  · exact ⟨rfl, rfl⟩

/-- Nothing is written by the steps of a trial. It reads the profile, sends and makes things
known, so that a trial finds the world as the one before has left it. -/
theorem LastTrial.spares {trial : Trial} {steps : List Step}
    {result : Except CallError Http.Response}
    (course : LastTrial client call options trial steps result) :
    ∀ step ∈ steps, step.effect.sparesProfile = true ∧ step.effect.sparesFiles = true := by
  intro step member
  cases course with
  | failed exchange =>
    cases exchange with
    | unbuilt refused =>
      obtain rfl := List.mem_singleton.mp member
      exact ⟨rfl, rfl⟩
    | unanswered built failed =>
      rcases List.mem_append.mp member with early | late
      · exact sending_spares _ _ _ _ step early
      · exact recorded_spares _ step late
  | settled built final =>
    rcases List.mem_append.mp member with early | late
    · exact sending_spares _ _ _ _ step early
    · exact recorded_spares _ step late

theorem RefusedTrial.spares {steps : List Step} {request : Http.Request}
    {response : Http.Response} (course : RefusedTrial client call options steps request response) :
    ∀ step ∈ steps, step.effect.sparesProfile = true ∧ step.effect.sparesFiles = true := by
  intro step member
  cases course with
  | refused built status =>
    rcases List.mem_append.mp member with early | late
    · exact sending_spares _ _ _ _ step early
    · exact recorded_spares _ step late

/-- The trial that decides a call is determined by the profile and the reply. Nothing else
enters into its request and its verdict, so that two trials with one profile and one reply
come to the same. -/
theorem LastTrial.determined {world : World} {trial : Trial} {steps : List Step}
    {result : Except CallError Http.Response}
    (course : LastTrial client call options trial steps result) (allows : world.Allows steps) :
    (∃ error, world.profile.requestOf call options = .error error ∧ proceedings steps = [] ∧
      result = .error error) ∨
    ∃ request reply, world.profile.requestOf call options = .ok request ∧
      proceedings steps = [.exchange (request.sentBy client.userAgent) reply] ∧
      result = responseOfReply request reply >>= verdict := by
  cases course with
  | failed exchange =>
    cases exchange with
    | unbuilt refused =>
      obtain rfl := World.profile_of_allows allows
      exact Or.inl ⟨_, refused, rfl, rfl⟩
    | @unanswered profile request reply error built failed =>
      rw [sending, List.cons_append] at allows
      obtain rfl := World.profile_of_allows allows
      refine Or.inr ⟨request, reply, built, by simp, ?_⟩
      rw [failed]
      rfl
  | @settled profile request response built final =>
    rw [sending, List.cons_append] at allows
    obtain rfl := World.profile_of_allows allows
    exact Or.inr ⟨request, .answered response, built, by simp, rfl⟩

/-- Trials under one profile, and with one reply where they send anything, fail alike before
they send or send the same request and come to the same. -/
theorem LastTrial.eq_of_profile {world other : World} {trial otherTrial : Trial}
    {steps otherSteps : List Step} {result otherResult : Except CallError Http.Response}
    (course : LastTrial client call options trial steps result) (allows : world.Allows steps)
    (there : LastTrial client call options otherTrial otherSteps otherResult)
    (allowsThere : other.Allows otherSteps) (profile : other.profile = world.profile)
    (replies : ∀ first ∈ exchanges (proceedings otherSteps),
      ∀ second ∈ exchanges (proceedings steps), first.2 = second.2) :
    otherResult = result ∧ proceedings otherSteps = proceedings steps := by
  have determined := there.determined allowsThere
  rw [profile] at determined
  rcases course.determined allows with ⟨error, refused, none, rfl⟩ | ⟨request, reply, built, sent, rfl⟩
  · rcases determined with ⟨_, refusedThere, noneThere, rfl⟩ | ⟨_, _, builtThere, -⟩
    · rw [refused] at refusedThere
      cases refusedThere
      exact ⟨rfl, noneThere.trans none.symm⟩
    · rw [refused] at builtThere
      cases builtThere
  · rcases determined with ⟨_, refusedThere, -⟩ | ⟨_, otherReply, builtThere, sentThere, rfl⟩
    · rw [built] at refusedThere
      cases refusedThere
    · rw [built] at builtThere
      cases builtThere
      rw [sent, sentThere] at replies
      obtain rfl := replies _ (List.mem_cons_self ..) _ (List.mem_cons_self ..)
      exact ⟨rfl, sentThere.trans sent.symm⟩

theorem RefusedTrial.determined {world : World} {steps : List Step} {request : Http.Request}
    {response : Http.Response} (course : RefusedTrial client call options steps request response)
    (allows : world.Allows steps) : world.profile.requestOf call options = .ok request ∧
      response.status = Http.forbidden := by
  cases course with
  | refused built status =>
    rw [sending, List.cons_append] at allows
    obtain rfl := World.profile_of_allows allows
    exact ⟨built, status⟩

@[simp]
theorem proceedings_loginEnded (halt : Option (Halt LoginError)) (rest : List Step) :
    proceedings (Step.recorded (.loginEnded halt) :: rest) =
      .loginEnded halt :: proceedings rest := rfl

/-- Two ways to take steps apart at a login that no other follows are the same. -/
theorem split_at_last_login {first rest before later : List Step}
    (split : first ++ Step.recorded (.loginEnded none) :: rest =
      before ++ Step.recorded (.loginEnded none) :: later)
    (last : (proceedings rest).any Moment.isLogin = false)
    (lastThere : (proceedings later).any Moment.isLogin = false) :
    first = before ∧ rest = later := by
  rcases List.append_eq_append_iff.mp split with ⟨between, rfl, same⟩ | ⟨between, rfl, same⟩
  · cases between with
    | nil => simpa using same
    | cons step between =>
      obtain ⟨rfl, rfl⟩ := List.cons.inj same
      simp [Moment.isLogin] at last
  · cases between with
    | nil => simpa using same.symm
    | cons step between =>
      obtain ⟨rfl, rfl⟩ := List.cons.inj same
      simp [Moment.isLogin] at lastThere

theorem dropWhile_append_of_sent {order : List Moment} (rest : List Moment)
    (sent : exchanges order ≠ []) : ∃ first behind,
      (order ++ rest).dropWhile (!·.isExchange) = first :: (behind ++ rest) := by
  induction order with
  | nil => exact absurd rfl sent
  | cons moment order ih =>
    cases moment with
    | exchange request reply => exact ⟨_, order, rfl⟩
    | _ => exact ih sent

theorem FirstLogin.dropWhile_append {token : Bool} {login : List Moment} (rest : List Moment)
    (credential : FirstLogin token login) :
    (login ++ rest).dropWhile (!·.isExchange) = rest.dropWhile (!·.isExchange) := by
  cases credential <;> rfl

theorem LastExchange.no_login {trial : Trial} {order : List Moment}
    {result : Except CallError Http.Response} (exchange : LastExchange trial order result) :
    order.any Moment.isLogin = false := by
  cases exchange <;> rfl

theorem LastExchange.length_le {trial : Trial} {order : List Moment}
    {result : Except CallError Http.Response} (exchange : LastExchange trial order result) :
    order.length ≤ 1 := by
  cases exchange <;> simp

/-- Behind a refusal and a login with success there is the second trial, and nothing else
but what becomes of its response. The other courses have no such place: in them no login
succeeds behind an exchange. -/
theorem ResponseCourse.afterRefresh {message : String} {steps handling before later : List Step}
    {result : Except CallError Http.Response}
    (course : ResponseCourse client call options steps result) (quiet : proceedings handling = [])
    (split : Step.recorded (.log .info message) :: (steps ++ handling) =
      before ++ Step.recorded (.loginEnded none) :: later)
    (sent : exchanges (proceedings before) ≠ []) :
    ∃ note last, later = Step.recorded (.log .info note) :: (last ++ handling) ∧
      LastTrial client call options .afterRefresh last result := by
  -- What the order holds from the first exchange on tells the courses apart.
  obtain ⟨first, behind, shape⟩ :=
    dropWhile_append_of_sent (.loginEnded none :: proceedings later) sent
  rw [← proceedings_loginEnded, ← proceedings_append, ← split, proceedings_log,
    proceedings_append, quiet, List.append_nil] at shape
  cases course with
  | unauthenticated credential =>
    obtain ⟨profile, -, ⟨halt, -, -, order⟩ | ⟨ok, -⟩⟩ := credential.found
    · simp [order, Moment.isExchange] at shape
    · cases ok
  | @once _ decisive _ credential trial =>
    obtain ⟨profile, -, login⟩ := credential.found_ok
    have exchange := trial.lastExchange
    rw [proceedings_append, login.dropWhile_append] at shape
    generalize proceedings decisive = order at shape exchange
    cases exchange with
    | unsent error => cases shape
    | sent final decided => simp [Moment.isExchange] at shape
  | unrefreshed warning credential refused login =>
    obtain ⟨profile, -, initial⟩ := credential.found_ok
    rw [proceedings_append, initial.dropWhile_append, proceedings_append, proceedings_log,
      refused.proceedings_eq, login.proceedings_eq] at shape
    simp [Moment.isExchange, List.cons_eq_append_iff, LoginProcedure.halt?] at shape
  | @twice warning note earlier refusal login last request response _ credential refused refresh
      trial =>
    obtain ⟨profile, -, initial⟩ := credential.found_ok
    -- No login follows on either side, so that both take the steps apart at the same place.
    have exchange := trial.lastExchange.no_login
    have order : (proceedings later).any Moment.isLogin = false := by
      rw [proceedings_append, initial.dropWhile_append, proceedings_append, proceedings_log,
        proceedings_append, refused.proceedings_eq, refresh.proceedings_eq,
        proceedings_log] at shape
      change _ :: .loginBegun :: .loginEnded none :: proceedings last = _ at shape
      rw [proceedings_loginEnded] at shape
      rcases behind with _ | ⟨begun, _ | ⟨ended, behind⟩⟩
      · simp at shape
      · simp only [List.cons_append, List.nil_append, List.cons.injEq] at shape
        rwa [← shape.2.2.2]
      · simp only [List.cons_append, List.cons.injEq] at shape
        simp [shape.2.2.2, Moment.isLogin] at exchange
    cases refresh with
    | @ended inner _ runs =>
      have joined : (Step.recorded (.log .info message) :: (earlier ++ (refusal ++
            Step.recorded (.log .warning warning) :: Step.recorded .loginBegun :: inner))) ++
          Step.recorded (.loginEnded none) :: Step.recorded (.log .info note) ::
            (last ++ handling) = before ++ Step.recorded (.loginEnded none) :: later := by
        rw [← split]
        simp [LoginProcedure.halt?]
      have behind : (proceedings (Step.recorded (.log .info note) :: (last ++ handling))).any
          Moment.isLogin = false := by
        rwa [proceedings_log, proceedings_append, quiet, List.append_nil]
      obtain ⟨-, rfl⟩ := split_at_last_login joined behind order
      exact ⟨note, last, rfl, trial⟩

theorem CredentialCourse.eq_of_token {world : World} {steps : List Step}
    {result : Except (Halt LoginError) Unit} (course : CredentialCourse client steps result)
    (allows : world.Allows steps) (token : world.profile.hasToken = true) :
    steps = [⟨.readProfile, world.profile⟩] := by
  cases course with
  | cached found =>
    obtain rfl := World.profile_of_allows allows
    rfl
  | obtained message missing login =>
    obtain rfl := World.profile_of_allows allows
    rw [token] at missing
    cases missing

/-- Where there is a token, a call is decided by its first trial, unless that is refused.
The courses that begin with a login are out of the question. -/
theorem ResponseCourse.of_token {world : World} {steps : List Step}
    {result : Except CallError Http.Response}
    (course : ResponseCourse client call options steps result) (allows : world.Allows steps)
    (token : world.profile.hasToken = true) :
    (∃ last, steps = ⟨.readProfile, world.profile⟩ :: last ∧
      LastTrial client call options .first last result) ∨
    ∃ request response rest, world.profile.requestOf call options = .ok request ∧
      response.status = Http.forbidden ∧ proceedings steps =
        .exchange (request.sentBy client.userAgent) (.answered response) :: rest := by
  cases course with
  | unauthenticated credential =>
    obtain ⟨profile, -, ⟨halt, -, -, order⟩ | ⟨ok, -⟩⟩ := credential.found
    · rw [credential.eq_of_token allows token] at order
      cases order
    · cases ok
  | once credential trial =>
    obtain rfl := credential.eq_of_token (World.allows_append.mp allows).1 token
    exact Or.inl ⟨_, rfl, trial⟩
  | unrefreshed message credential refused login =>
    have start := World.allows_append.mp allows
    obtain rfl := credential.eq_of_token start.1 token
    obtain ⟨built, status⟩ := refused.determined (World.allows_append.mp start.2).1
    exact Or.inr ⟨_, _, _, built, status, by
      rw [List.singleton_append, proceedings_readProfile, proceedings_append,
        refused.proceedings_eq, List.singleton_append]⟩
  | twice message retry credential refused refresh trial =>
    have start := World.allows_append.mp allows
    obtain rfl := credential.eq_of_token start.1 token
    obtain ⟨built, status⟩ := refused.determined (World.allows_append.mp start.2).1
    exact Or.inr ⟨_, _, _, built, status, by
      rw [List.singleton_append, proceedings_readProfile, proceedings_append,
        refused.proceedings_eq, List.singleton_append]⟩

/-- Where there is a token, a call of which no request can be made is over at once: nothing is
sent, nobody logs in, and all that is left behind is a note. -/
theorem execute_unmade {world : World} {error : CallError} (token : world.profile.hasToken = true)
    (refused : world.profile.requestOf call options = .error error) :
    proceedings (world.steps (execute client call options)) = [] ∧
      ∃ message, world.run (execute client call options) =
        ((options, .error error), world.record (.log .info message)) := by
  have runs := world.runs_steps (execute client call options)
  have allowed := world.allows_steps (execute client call options)
  obtain ⟨message, first, handling, result, parts, response, handled⟩ := (Course.of_runs runs).parts
  rw [parts] at allowed
  obtain ⟨-, start⟩ := allowed
  rcases response.of_token (World.allows_append.mp start).1 token with
    ⟨last, rfl, trial⟩ | ⟨request, response, rest, built, -⟩
  · have found : ∀ {profile rest}, last = ⟨.readProfile, profile⟩ :: rest →
        profile.requestOf call options = .error error := by
      rintro profile rest rfl
      obtain ⟨-, later⟩ := (World.allows_append.mp start).1
      exact World.profile_of_allows later ▸ refused
    cases trial with
    | failed exchange =>
      cases exchange with
      | unbuilt unmade =>
        cases unmade.symm.trans (found rfl)
        obtain ⟨rfl, same⟩ := Program.runs_pure_iff.mp handled
        refine ⟨by rw [parts]; rfl, message, Prod.ext same ?_⟩
        rw [← World.after_steps, parts]
        rfl
      | unanswered built failed => cases built.symm.trans (found rfl)
    | settled built final => cases built.symm.trans (found rfl)
  · cases refused.symm.trans built

/-- A call whose first token is refused and which then obtains another. Its steps are taken
apart at the end of the login that gives the token, since all that is compared later comes
behind that place. -/
structure Refreshed (client : Client) (call : Call) (options : CallOptions) (world : World)
    (before later : List Step) : Prop where
  steps_eq : world.steps (execute client call options) =
    before ++ Step.recorded (.loginEnded none) :: later
  refused : (exchanges (proceedings before)).map (·.2.isRefusal) = [true]
  /-- The logins write nothing but tokens. -/
  spares_files : ∀ step ∈ before, step.effect.sparesFiles = true
  has_token : (world.after before).profile.hasToken = true

/-- Two calls that come to the same and leave the same behind. The runs have different
lengths, so it is their results and their traces in profile and files that are compared. -/
structure SameCall (client : Client) (call : Call) (options : CallOptions) (world other : World) :
    Prop where
  outcome : (other.run (execute client call options)).1 =
    (world.run (execute client call options)).1
  profile : (other.run (execute client call options)).2.profile =
    (world.run (execute client call options)).2.profile
  files : (other.run (execute client call options)).2.files =
    (world.run (execute client call options)).2.files
  writes : writes (other.steps (execute client call options)) =
    writes (world.steps (execute client call options))

/-- The end of a call in a world: the trial that decides it and what is done with its
response, behind steps that spare the files. A refreshed call and one that had its token
from the start both have such an end, and meet there. -/
structure Ending (client : Client) (call : Call) (options : CallOptions) (world : World)
    (trial : Trial) (early last handling : List Step) (result : Except CallError Http.Response) :
    Prop where
  steps_eq : world.steps (execute client call options) = early ++ (last ++ handling)
  spares_files : ∀ step ∈ early, step.effect.sparesFiles = true
  decisive : LastTrial client call options trial last result
  handled : (finishing call options result).Runs handling
    (world.run (execute client call options)).1

namespace Ending

variable {world other : World} {trial : Trial} {early last handling : List Step}
  {result : Except CallError Http.Response}

theorem allows (ending : Ending client call options world trial early last handling result) :
    (world.after early).Allows last ∧ ((world.after early).after last).Allows handling := by
  have allowed := world.allows_steps (execute client call options)
  rw [ending.steps_eq, World.allows_append, World.allows_append] at allowed
  exact allowed.2

theorem after_eq (ending : Ending client call options world trial early last handling result) :
    (world.run (execute client call options)).2 =
      ((world.after early).after last).after handling := by
  rw [← World.after_steps, ending.steps_eq, World.after_append, World.after_append]

theorem profile_eq (ending : Ending client call options world trial early last handling result) :
    (world.run (execute client call options)).2.profile = (world.after early).profile := by
  have spare := (finishing_isLocal call options result).steps ending.handled
  rw [ending.after_eq,
    World.after_profile fun step member => Effect.sparesProfile_of_isLocal (spare step member),
    World.after_profile fun step member => (ending.decisive.spares step member).1]

theorem files_eq (ending : Ending client call options world trial early last handling result) :
    ((world.after early).after last).files = world.files := by
  rw [World.after_files fun step member => (ending.decisive.spares step member).2,
    World.after_files ending.spares_files]

theorem writes_eq (ending : Ending client call options world trial early last handling result) :
    writes (world.steps (execute client call options)) = writes handling := by
  rw [ending.steps_eq, writes_append, writes_append, writes_eq_nil ending.spares_files,
    writes_eq_nil fun step member => (ending.decisive.spares step member).2]
  rfl

/-- Two calls with the same response that find the same files handle it alike. What is done
with a response asks nothing of the world but its files. -/
theorem sameCall (ending : Ending client call options world trial early last handling result)
    {otherTrial : Trial} {otherEarly otherLast otherHandling : List Step}
    (there : Ending client call options other otherTrial otherEarly otherLast otherHandling result)
    (profile : (other.after otherEarly).profile = (world.after early).profile)
    (files : other.files = world.files) : SameCall client call options world other := by
  have same := there.files_eq.trans (files.trans ending.files_eq.symm)
  have alike := World.run_of_files (finishing_isLocal call options result) same
  rw [World.run_of_allows ending.handled ending.allows.2,
    World.run_of_allows there.handled there.allows.2,
    World.steps_of_allows ending.handled ending.allows.2,
    World.steps_of_allows there.handled there.allows.2] at alike
  exact {
    outcome := alike.1
    profile := by rw [there.profile_eq, ending.profile_eq, profile]
    files := by rw [there.after_eq, ending.after_eq, alike.2.1]
    writes := by rw [there.writes_eq, ending.writes_eq, alike.2.2] }

end Ending

/-- The end of a call behind the login that gives another token. The profile at this place
is the one that the login has left. -/
theorem Refreshed.ending {world : World} {before later : List Step}
    (refreshed : Refreshed client call options world before later) :
    ∃ early last handling result,
      Ending client call options world .afterRefresh early last handling result ∧
        (world.after early).profile = (world.after before).profile ∧
        proceedings later = proceedings last := by
  have course := Course.of_runs (world.runs_steps (execute client call options))
  obtain ⟨message, first, handling, result, parts, response, handled⟩ := course.parts
  have sent : exchanges (proceedings before) ≠ [] := by
    intro none
    have refused := refreshed.refused
    rw [none] at refused
    cases refused
  obtain ⟨note, last, rfl, trial⟩ :=
    response.afterRefresh (finishing_proceedings handled) (parts.symm.trans refreshed.steps_eq) sent
  refine ⟨before ++ [Step.recorded (.loginEnded none), Step.recorded (.log .info note)], last,
    handling, result, ⟨?_, ?_, trial, handled⟩, ?_, ?_⟩
  · rw [refreshed.steps_eq]
    simp
  · intro step member
    rcases List.mem_append.mp member with early | late
    · exact refreshed.spares_files step early
    · simp only [List.mem_cons, List.not_mem_nil, or_false] at late
      rcases late with rfl | rfl <;> rfl
  · rw [World.after_append]
    rfl
  · rw [proceedings_log, proceedings_append, finishing_proceedings handled, List.append_nil]

/-- The end of a call that finds a token which is not refused. -/
theorem ending_of_token {world : World} (token : world.profile.hasToken = true)
    (lasting : ∀ request response rest, world.profile.requestOf call options = .ok request →
      proceedings (world.steps (execute client call options)) =
        .exchange (request.sentBy client.userAgent) (.answered response) :: rest →
      response.status ≠ Http.forbidden) :
    ∃ early last handling result,
      Ending client call options world .first early last handling result ∧
        (world.after early).profile = world.profile ∧
        proceedings (world.steps (execute client call options)) = proceedings last := by
  have course := Course.of_runs (world.runs_steps (execute client call options))
  obtain ⟨message, first, handling, result, parts, response, handled⟩ := course.parts
  have allowed := world.allows_steps (execute client call options)
  have order : proceedings (world.steps (execute client call options)) = proceedings first := by
    rw [parts, proceedings_log, proceedings_append, finishing_proceedings handled, List.append_nil]
  rw [parts] at allowed
  obtain ⟨-, start⟩ := allowed
  rcases response.of_token (World.allows_append.mp start).1 token with
    ⟨last, rfl, trial⟩ | ⟨request, response, rest, built, status, shape⟩
  · refine ⟨[Step.recorded (.log .info message), ⟨.readProfile, world.profile⟩], last, handling,
      result, ⟨?_, ?_, trial, handled⟩, rfl, ?_⟩
    · rw [parts]
      rfl
    · intro step member
      simp only [List.mem_cons, List.not_mem_nil, or_false] at member
      rcases member with rfl | rfl <;> rfl
    · rw [order]
      rfl
  · exact absurd status (lasting request response rest built (order.trans shape))

/-- A call whose token is refused and replaced is, from the second request on, the call that
is made with the new token at once. Both are decided by a trial under the same profile, and
since a trial is determined by profile and reply, the one shows what the other does. -/
theorem transparent_refresh {world alone : World} {before later : List Step}
    (refreshed : Refreshed client call options world before later)
    (lasting : ∀ exchange ∈ exchanges (proceedings later), exchange.2.isRefusal = false)
    (profile : alone.profile = (world.after before).profile) (files : alone.files = world.files)
    (replies : ∀ first ∈ exchanges (proceedings (alone.steps (execute client call options))),
      ∀ second ∈ exchanges (proceedings later), first.2 = second.2) :
    SameCall client call options world alone ∧
      proceedings (alone.steps (execute client call options)) = proceedings later ∧
      (proceedings later).length ≤ 1 := by
  obtain ⟨early, last, handling, result, ending, sameProfile, order⟩ := refreshed.ending
  have token : alone.profile.hasToken = true := profile ▸ refreshed.has_token
  have determined := ending.decisive.determined ending.allows.1
  rw [sameProfile, ← profile, ← order] at determined
  have kept : ∀ request response rest, alone.profile.requestOf call options = .ok request →
      proceedings (alone.steps (execute client call options)) =
        .exchange (request.sentBy client.userAgent) (.answered response) :: rest →
      response.status ≠ Http.forbidden := by
    intro request response rest built shape status
    rcases determined with ⟨error, refused, -⟩ | ⟨other, reply, builtThere, sent, -⟩
    · rw [refused] at built
      cases built
    · rw [sent] at replies lasting
      rw [shape] at replies
      have same := replies _ (List.mem_cons_self ..) _ (List.mem_cons_self ..)
      have final := lasting _ (List.mem_cons_self ..)
      rw [← same] at final
      simp [Http.Reply.isRefusal, status] at final
  obtain ⟨otherEarly, otherLast, otherHandling, otherResult, there, otherProfile, otherOrder⟩ :=
    ending_of_token token kept
  have shared : (alone.after otherEarly).profile = (world.after early).profile := by
    rw [otherProfile, sameProfile, profile]
  obtain ⟨rfl, alike⟩ := ending.decisive.eq_of_profile ending.allows.1 there.decisive
    there.allows.1 shared (by rwa [otherOrder, order] at replies)
  have single : (proceedings later).length ≤ 1 := by
    rw [order]
    exact ending.decisive.lastExchange.length_le
  exact ⟨ending.sameCall there shared files, otherOrder.trans (alike.trans order.symm), single⟩

end Call

/-- A file in a response with success. -/
def fileAnswer : RemoteStep :=
  .answer (.response Http.ok
    [(.contentType, Text.encode "application/zip")] (Text.encode "PK"))

/-- A platform that refuses the old token, gives out another and then sends a file. -/
def refreshingWorld : World :=
  { refusingWorld with
    remote := .script [
      .answer (.response Http.forbidden [] []),
      .answer (.response Http.ok []
        (Text.encode "\x7b\"access_token\":\"fresh\"\x7d")),
      fileAnswer] }

/-- The same platform where the new token is known from the start. -/
def refreshedWorld : World :=
  { refusingWorld with
    profile := { refusingWorld.profile with token := "fresh" }
    remote := .script [fileAnswer] }

/-- The options of a call whose response is saved. -/
def savingOptions : CallOptions := { headers := [(fileNameHeader, "objects.zip")] }

/-- The steps with which the file is obtained. -/
def refreshingSteps : List Step :=
  refreshingWorld.steps (Call.execute .handing .forObjects savingOptions)

theorem Step.eq_of_loginEnded {step : Step} {halt : Option (Halt LoginError)}
    (moment : step.moment? = some (.loginEnded halt)) :
    step = Step.recorded (.loginEnded halt) := by
  obtain ⟨effect, outcome⟩ := step
  cases effect with
  | record event =>
    cases event with
    | loginEnded given =>
      cases moment
      rfl
    | _ => cases moment
  | send purpose request => cases purpose <;> cases moment
  | _ => cases moment

/-- Steps can be taken apart where a login ends. -/
theorem split_at_loginEnded {steps : List Step} {place : Nat} {halt : Option (Halt LoginError)}
    (ended : steps[place]?.bind Step.moment? = some (.loginEnded halt)) :
    steps = steps.take place ++ Step.recorded (.loginEnded halt) :: steps.drop (place + 1) := by
  obtain ⟨step, found, moment⟩ := Option.bind_eq_some_iff.mp ended
  obtain ⟨bound, rfl⟩ := List.getElem?_eq_some_iff.mp found
  rw [← Step.eq_of_loginEnded moment, ← List.drop_eq_getElem_cons bound, List.take_append_drop]

theorem Call.refreshed_saving :
    Refreshed .handing .forObjects savingOptions refreshingWorld (refreshingSteps.take 15)
      (refreshingSteps.drop 16) := by
  have run : refreshingSteps[15]?.bind Step.moment? = some (.loginEnded none) ∧
      (exchanges (proceedings (refreshingSteps.take 15))).map (·.2.isRefusal) = [true] ∧
      (∀ step ∈ refreshingSteps.take 15, step.effect.sparesFiles = true) ∧
      (refreshingWorld.after (refreshingSteps.take 15)).profile.hasToken = true := by
    decide +kernel
  exact ⟨split_at_loginEnded run.1, run.2.1, run.2.2.1, run.2.2.2⟩

/-- A file that comes behind a refusal is saved as it is without one. -/
theorem Call.transparent_refresh_saved_file :
    (refreshingWorld.run (execute .handing .forObjects savingOptions)).1.2.toOption =
      some (.saved "objects.zip") ∧
    SameCall .handing .forObjects savingOptions refreshingWorld refreshedWorld := by
  have run : (∀ exchange ∈ exchanges (proceedings (refreshingSteps.drop 16)),
        exchange.2.isRefusal = false) ∧
      refreshedWorld.profile = (refreshingWorld.after (refreshingSteps.take 15)).profile ∧
      refreshedWorld.files = refreshingWorld.files ∧
      (∀ first ∈ exchanges
          (proceedings (refreshedWorld.steps (execute .handing .forObjects savingOptions))),
        ∀ second ∈ exchanges (proceedings (refreshingSteps.drop 16)), first.2 = second.2) ∧
      (refreshingWorld.run (execute .handing .forObjects savingOptions)).1.2.toOption =
        some (.saved "objects.zip") := by
    decide +kernel
  obtain ⟨lasting, profile, files, replies, saved⟩ := run
  exact ⟨saved, (transparent_refresh refreshed_saving lasting profile files replies).1⟩

end PlatformClient
