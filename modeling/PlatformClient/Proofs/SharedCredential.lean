import PlatformClient.Proofs.CallCredentials
import PlatformClient.Proofs.RetryProtocol
import PlatformClient.Proofs.Sharing

namespace PlatformClient

namespace Http

theorem Headers.values_signed {name : HeaderName} (other : name ≠ .userAgent) (headers : Headers)
    (userAgent : Option Bytes) : (headers.signed userAgent).values name = headers.values name := by
  unfold signed
  split
  · exact values_insert_of_ne other
  · rfl

/-- The headers of a request replace what its address stands for. -/
theorem Request.values_sentBy {request : Request} {name : HeaderName} {value : Bytes}
    (other : name ≠ .userAgent) (only : request.headers.values name = [value])
    (userAgent : Option Bytes) : (request.sentBy userAgent).headers.values name = [value] := by
  rw [sentBy, Headers.values_signed other]
  exact Headers.values_override only

theorem Request.sentBy_authorization {request : Request} {value : Bytes}
    (only : request.headers.values .authorization = [value]) (userAgent : Option Bytes) :
    (request.sentBy userAgent).headers.values .authorization = [value] :=
  values_sentBy (by decide) only userAgent

end Http

/-- A request that is made of a profile carries its token, unless the caller states an
authorization. -/
theorem Profile.requestOf_bearer {profile : Profile} {call : Call} {options : CallOptions}
    {request : Http.Request} (built : profile.requestOf call options = .ok request)
    (silent : options.headers.asksFor "authorization" = false) :
    request.headers.values .authorization = [Text.encode ("Bearer " ++ profile.token)] := by
  obtain ⟨context, known, made⟩ := requestOf_eq_ok_iff.mp built
  rw [CallContext.request_bearer made silent]
  unfold Profile.context at known
  obtain ⟨url, -, same⟩ := bind_eq_ok_iff.mp known
  cases same
  rfl

/-- What one of those who share a profile wants. -/
inductive Task where
  | execute (client : Client) (call : Call) (options : CallOptions)
  | logIn (client : Client)

namespace Task

variable {task : Task} {steps : List Step}

def client : Task → Client
  | .execute client _ _ => client
  | .logIn client => client

def program : Task → Program Unit
  | .execute client call options => do
    let _ ← Call.execute client call options
    return ()
  | .logIn client => do
    let _ ← client.logIn.run
    return ()

/-- The ways that a task can go. -/
inductive Course : Task → List Step → Prop
  | execute {client : Client} {call : Call} {options : CallOptions} {steps : List Step}
      {outcome : CallOptions × Except CallError Payload}
      (course : Call.Course client call options steps outcome) :
      Course (.execute client call options) steps
  | logIn {client : Client} {steps : List Step} {result : Except (Halt LoginError) Unit}
      (course : Call.LoginCourse client steps result) : Course (.logIn client) steps

theorem Course.of_runs (runs : task.program.Runs steps ()) : Course task steps := by
  cases task with
  | execute client call options =>
    obtain ⟨_, outcome, _, rfl, called, done⟩ := Program.runs_bind_iff.mp runs
    obtain ⟨rfl, -⟩ := Program.runs_pure_iff.mp done
    rw [List.append_nil]
    exact .execute (.of_runs called)
  | logIn client =>
    obtain ⟨_, result, _, rfl, login, done⟩ := Program.runs_bind_iff.mp runs
    obtain ⟨rfl, -⟩ := Program.runs_pure_iff.mp done
    rw [List.append_nil]
    obtain ⟨inner, login, -⟩ := Attempt.runs_adapt_iff.mp login
    exact .logIn (.of_runs login)

theorem Course.exchanges_le (course : Course task steps) :
    (exchanges (proceedings steps)).length ≤ 2 := by
  cases course with
  | execute course =>
    obtain ⟨profile, result, -, protocol, -⟩ := course.protocol
    exact protocol.exchanges_le
  | logIn course => simp [course.silent]

theorem Course.logins_le (course : Course task steps) :
    (proceedings steps).count .loginBegun ≤ 2 := by
  cases course with
  | execute course =>
    obtain ⟨profile, result, -, protocol, -⟩ := course.protocol
    exact protocol.logins_le
  | logIn course => simp [course.proceedings_eq]

theorem Course.logins {method : AuthMethod} (course : Course task steps)
    (login : task.client.login = .profile) (reads : ReadsMethod method steps) :
    Logins method (loginMarks steps) := by
  cases course with
  | execute course => exact course.logins login reads
  | logIn course => exact course.logins login reads

/-- Only who makes a call sends its requests, and has prepared them. A login by itself sends
requests for tokens only. -/
theorem Course.sends (course : Course task steps) (login : task.client.login = .profile)
    {before after : List Step} {request : Http.Request} {reply : Http.Reply}
    (split : steps = before ++ ⟨.send .call request, reply⟩ :: after) :
    ∃ client call options, task = .execute client call options ∧
      Call.Prepared client call options before ⟨.send .call request, reply⟩ := by
  cases course with
  | execute course => exact ⟨_, _, _, rfl, (course.prepared login).of_split split⟩
  | logIn course =>
    have silent := course.silent
    rw [split, proceedings_append, exchanges_append, List.append_eq_nil_iff] at silent
    cases silent.2

end Task

/-- What holds of a profile, and of those who share it, whatever has been done. It is about
every moment: the history may stop anywhere, and each of the fields is about what has been
done until then. -/
structure SharedCredential {ι : Type} [DecidableEq ι] (tasks : ι → Task) (profile : Profile)
    (history : History ι) (now : Profile) : Prop where
  profile_eq : now = history.leave profile
  only_token : now = { profile with token := now.token }
  kept : ∀ earlier later : History ι, history = earlier ++ later →
    (earlier.leave profile).hasToken = true → now.hasToken = true
  /-- A request carries the token of a profile that its sender has read before, as the
  profile was at that moment. -/
  bearer : ∀ before who request reply after,
    history = before ++ (who, ⟨.send .call request, reply⟩) :: after →
      ∃ client call options, tasks who = .execute client call options ∧
        (options.headers.asksFor "authorization" = false →
          ∃ (earlier : History ι) (given : Profile) (later : History ι),
            before = earlier ++ (who, ⟨.readProfile, given⟩) :: later ∧
            given = earlier.leave profile ∧
            request.headers.values .authorization = [Text.encode ("Bearer " ++ given.token)] ∧
            (profile.authMethod ≠ .local → given.hasToken = true))
  exchanges_le : ∀ who, (exchanges (proceedings (history.doneBy who))).length ≤ 2
  logins_le : ∀ who, (proceedings (history.doneBy who)).count .loginBegun ≤ 2
  /-- What someone has done of logins is the begin of such as the profile asks for. -/
  logins : ∀ who, ∃ rest, Logins profile.authMethod (loginMarks (history.doneBy who) ++ rest)
  /-- The token is the one from the beginning, or the one that was stored last, by a login
  that comes to nothing else but success. -/
  final_token :
    (∀ move ∈ history, move.2.effect.sparesProfile = true) ∧ now.token = profile.token ∨
      ∃ (before : History ι) (who : ι) (token : String) (after : History ι),
        history = before ++ (who, ⟨.storeToken token, ()⟩) :: after ∧
        (∀ move ∈ after, move.2.effect.sparesProfile = true) ∧ now.token = token ∧
        (∃ earlier, loginMarks (before.doneBy who) = earlier ++ [.begun]) ∧
        ∀ mark, (loginMarks (after.doneBy who)).head? = some mark → mark = .ended none

section

variable {ι : Type} [DecidableEq ι] {tasks : ι → Task} {profile : Profile} {history : History ι}
  {now : Sharing ι}

/-- The profile and the tasks that begin to share it. -/
def sharedBy (profile : Profile) (tasks : ι → Task) : Sharing ι :=
  ⟨profile, fun who => (tasks who).program⟩

theorem Step.Fits.authMethod {found : Profile} {steps : List Step}
    (fits : ∀ step ∈ steps, step.Fits found) : ReadsMethod found.authMethod steps := by
  intro given member
  have same := fits _ member
  change given = found at same
  rw [same]

namespace Sharing.Reaches

variable (reached : Reaches (sharedBy profile tasks) history now)
include reached

theorem fits_at {earlier later : History ι} {who : ι} {given : Profile}
    (split : history = earlier ++ (who, ⟨.readProfile, given⟩) :: later) :
    given = earlier.leave profile := reached.fits split

theorem readsMethod (who : ι) : ReadsMethod profile.authMethod (history.doneBy who) := by
  intro given member
  obtain ⟨before, after, split⟩ := List.append_of_mem member
  obtain ⟨earlier, later, split, -⟩ := History.split_of_doneBy split
  rw [reached.fits_at split, History.leave_authMethod]

/-- What someone has done is the begin of a way that its task can go. The profile that it
reads may have been changed by others, but never in its authentication method. -/
theorem course (who : ι) : ∃ rest, Task.Course (tasks who) (history.doneBy who ++ rest) ∧
    ReadsMethod profile.authMethod (history.doneBy who ++ rest) := by
  obtain ⟨rest, runs, fits⟩ := reached.whole who
  refine ⟨rest, .of_runs runs, readsMethod_append.mpr ⟨reached.readsMethod who, ?_⟩⟩
  have method : now.profile.authMethod = profile.authMethod := by
    rw [reached.profile_eq]
    exact History.leave_authMethod ..
  rw [← method]
  exact Step.Fits.authMethod fits

variable (login : ∀ who, (tasks who).client.login = .profile)
include login

theorem logins (who : ι) :
    ∃ rest, Logins profile.authMethod (loginMarks (history.doneBy who) ++ rest) := by
  obtain ⟨rest, course, reads⟩ := reached.course who
  have logins := course.logins (login who) reads
  rw [loginMarks_append] at logins
  exact ⟨_, logins⟩

theorem filled (who : ι) (token : String) (member : (who, ⟨.storeToken token, ()⟩) ∈ history) :
    token.isEmpty = false := by
  obtain ⟨rest, logins⟩ := reached.logins login who
  refine logins.filled (List.mem_append_left _ ?_)
  exact List.mem_filterMap.mpr ⟨_, History.mem_doneBy.mpr member, rfl⟩

theorem kept {earlier between later : History ι} (split : history = earlier ++ between ++ later)
    (found : (earlier.leave profile).hasToken = true) :
    ((earlier ++ between).leave profile).hasToken = true := by
  rw [History.leave_append]
  refine History.leave_hasToken (fun who token member => ?_) found
  exact reached.filled login who token (by simp [split, member])

/-- Behind a step that assures of the token, there is one, unless none is needed. It stays
there, whatever others do, as they store no empty token. -/
theorem assured {earlier later : History ι} {who : ι} {step : Step}
    (split : history = earlier ++ later) (member : step ∈ earlier.doneBy who)
    (assures : step.assuresToken = true) (needed : profile.authMethod ≠ .local) :
    (earlier.leave profile).hasToken = true := by
  obtain ⟨(before : History ι), (after : History ι), rfl⟩ :=
    List.append_of_mem (History.mem_doneBy.mp member)
  obtain ⟨effect, outcome⟩ := step
  cases effect with
  | readProfile =>
    have given : outcome = before.leave profile :=
      reached.fits_at (by rw [split, List.append_assoc, List.cons_append])
    have found : (before.leave profile).hasToken = true := by
      subst given
      simpa [Step.assuresToken, History.leave_authMethod, needed] using assures
    exact reached.kept login split found
  | storeToken token =>
    have filled := reached.filled login who token (by simp [split])
    have whole : history = before ++ [(who, ⟨.storeToken token, outcome⟩)] ++ after ++ later := by
      simp [split]
    have kept := reached.kept login whole (by
      rw [History.leave_append]
      simp [History.leave, Effect.leave, Profile.hasToken, filled])
    simpa using kept
  | _ => cases assures

theorem bearer {before after : History ι} {who : ι} {request : Http.Request} {reply : Http.Reply}
    (split : history = before ++ (who, ⟨.send .call request, reply⟩) :: after) :
    ∃ client call options, tasks who = .execute client call options ∧
      (options.headers.asksFor "authorization" = false →
        ∃ (earlier : History ι) (given : Profile) (later : History ι),
          before = earlier ++ (who, ⟨.readProfile, given⟩) :: later ∧
          given = earlier.leave profile ∧
          request.headers.values .authorization = [Text.encode ("Bearer " ++ given.token)] ∧
          (profile.authMethod ≠ .local → given.hasToken = true)) := by
  obtain ⟨rest, course, -⟩ := reached.course who
  rw [split, History.doneBy_append, History.doneBy_cons_self, List.append_assoc,
    List.cons_append] at course
  obtain ⟨client, call, options, task, found, given, after', built, done, requested, rfl,
    step, member, assures⟩ := course.sends (login who) rfl
  refine ⟨client, call, options, task, fun silent => ?_⟩
  obtain ⟨earlier, later, rfl, rfl⟩ := History.split_of_doneBy done
  rw [List.append_assoc, List.cons_append] at split
  have same := reached.fits_at split
  refine ⟨earlier, given, later, rfl, same, ?_, fun needed => ?_⟩
  · exact Http.Request.sentBy_authorization (Profile.requestOf_bearer requested silent) _
  · rw [same]
    exact reached.assured login split member assures needed

theorem final_token :
    (∀ move ∈ history, move.2.effect.sparesProfile = true) ∧
        (history.leave profile).token = profile.token ∨
      ∃ (before : History ι) (who : ι) (token : String) (after : History ι),
        history = before ++ (who, ⟨.storeToken token, ()⟩) :: after ∧
        (∀ move ∈ after, move.2.effect.sparesProfile = true) ∧
        (history.leave profile).token = token ∧
        (∃ earlier, loginMarks (before.doneBy who) = earlier ++ [.begun]) ∧
        ∀ mark, (loginMarks (after.doneBy who)).head? = some mark → mark = .ended none := by
  rcases history.leave_token profile with none | ⟨before, who, token, after, split, last, same⟩
  · exact Or.inl none
  refine Or.inr ⟨before, who, token, after, split, last, same, ?_⟩
  obtain ⟨rest, logins⟩ := reached.logins login who
  have marks : loginMarks (history.doneBy who) ++ rest = loginMarks (before.doneBy who) ++
      .stored token :: (loginMarks (after.doneBy who) ++ rest) := by
    rw [split, History.doneBy_append, History.doneBy_cons_self, loginMarks_append,
      List.append_assoc]
    rfl
  obtain ⟨begun, later, ended⟩ := logins.around marks
  refine ⟨begun, fun mark first => ?_⟩
  cases found : loginMarks (after.doneBy who) with
  | nil =>
    rw [found] at first
    cases first
  | cons given others =>
    rw [found] at first ended
    cases first
    exact (List.cons.inj ended).1

end Sharing.Reaches

/-- In whatever order those who share a profile take their steps, and wherever they stop:
only the token of the profile changes, it is never lost, requests carry one that was there
while they were made, and it is the one that was stored last. Each of them goes through a
course of its own task, and the profile is all that they can tell each other. -/
theorem shared_profile (reached : Sharing.Reaches (sharedBy profile tasks) history now)
    (login : ∀ who, (tasks who).client.login = .profile) :
    SharedCredential tasks profile history now.profile := by
  have profile_eq : now.profile = history.leave profile := reached.profile_eq
  constructor
  case profile_eq => exact profile_eq
  case only_token =>
    rw [profile_eq]
    exact history.leave_eq profile
  case kept =>
    intro earlier later split found
    have kept := reached.kept login (by rw [split, List.append_nil]) found
    rwa [profile_eq, split]
  case bearer => exact fun before who request reply after split => reached.bearer login split
  case exchanges_le =>
    intro who
    obtain ⟨rest, course, -⟩ := reached.course who
    have whole := course.exchanges_le
    rw [proceedings_append, exchanges_append, List.length_append] at whole
    omega
  case logins_le =>
    intro who
    obtain ⟨rest, course, -⟩ := reached.course who
    have whole := course.logins_le
    rw [proceedings_append, List.count_append] at whole
    omega
  case logins => exact fun who => reached.logins login who
  case final_token =>
    rw [profile_eq]
    exact reached.final_token login

end

/-- A platform that refuses a token twice before it gives out two others. -/
def racingWorld : World where
  profile := refusingWorld.profile
  files := Files.emptyAt ["work"]
  remote := .script [
    .answer (.response Http.forbidden [] []),
    .answer (.response Http.forbidden [] []),
    .answer (.response Http.ok [] (Text.encode "\x7b\"access_token\":\"one\"\x7d")),
    .answer (.response Http.ok [] (Text.encode "\x7b\"access_token\":\"two\"\x7d")),
    .answer (.response Http.ok [] []),
    .answer (.response Http.ok [] [])]

/-- Two who make the same call of that platform. -/
def racers : Bool → Task := fun _ => .execute .handing .forObjects {}

/-- They take turns. -/
def race : History Bool × Sharing Bool :=
  racingWorld.interleave (fun who => (racers who).program) (List.replicate 22 [true, false]).flatten

/-- Both log in at the same time, and each of them makes its call a second time. -/
theorem shared_profile_of_race :
    loginMarks (race.1.map (·.2)) =
        [.begun, .begun, .stored "one", .stored "two", .ended none, .ended none] ∧
      (exchanges (proceedings (race.1.map (·.2)))).length = 4 ∧
      SharedCredential racers racingWorld.profile race.1 race.2.profile := by
  have reached : Sharing.Reaches (sharedBy racingWorld.profile racers) race.1 race.2 := by
    unfold race sharedBy
    exact racingWorld.interleave_reaches_start ..
  exact ⟨by decide +kernel, by decide +kernel, shared_profile reached fun _ => rfl⟩

end PlatformClient
