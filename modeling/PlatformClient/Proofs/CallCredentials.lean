import PlatformClient.Proofs.HeaderPrecedence
import PlatformClient.Proofs.Moments
import PlatformClient.Proofs.ProfileLogins

namespace PlatformClient

/-- What a login does to the profile, and its begin and end. -/
inductive LoginMark where
  | begun
  | stored (token : String)
  | ended (halt : Option (Halt LoginError))
  deriving DecidableEq, Repr

def Step.loginMark? : Step → Option LoginMark
  | ⟨.record .loginBegun, _⟩ => some .begun
  | ⟨.storeToken token, _⟩ => some (.stored token)
  | ⟨.record (.loginEnded halt), _⟩ => some (.ended halt)
  | _ => none

def loginMarks (steps : List Step) : List LoginMark := steps.filterMap Step.loginMark?

@[simp]
theorem loginMarks_append (first rest : List Step) :
    loginMarks (first ++ rest) = loginMarks first ++ loginMarks rest := List.filterMap_append

/-- Logins, one after the other, as an authentication method has them. A token is stored
exactly by a login that succeeds with one, and it is not empty. There is no login within
another. -/
inductive Logins (method : AuthMethod) : List LoginMark → Prop
  | done : Logins method []
  | failed (halt : Halt LoginError) {rest : List LoginMark} (later : Logins method rest) :
      Logins method (.begun :: .ended (some halt) :: rest)
  | granted {token : String} {rest : List LoginMark} (service : method = .servicePrincipal)
      (filled : token.isEmpty = false) (later : Logins method rest) :
      Logins method (.begun :: .stored token :: .ended none :: rest)
  | trusted {rest : List LoginMark} (machine : method = .local) (later : Logins method rest) :
      Logins method (.begun :: .ended none :: rest)

theorem Logins.append {method : AuthMethod} {first rest : List LoginMark}
    (logins : Logins method first) (later : Logins method rest) :
    Logins method (first ++ rest) := by
  induction logins with
  | done => exact later
  | failed halt _ ih => exact .failed halt ih
  | granted service filled _ ih => exact .granted service filled ih
  | trusted machine _ ih => exact .trusted machine ih

theorem Logins.filled {method : AuthMethod} {marks : List LoginMark} (logins : Logins method marks)
    {token : String} (stored : .stored token ∈ marks) : token.isEmpty = false := by
  induction logins with
  | done => cases stored
  | failed halt _ ih => exact ih (by simpa using stored)
  | granted service filled _ ih =>
    rcases (by simpa using stored : token = _ ∨ LoginMark.stored token ∈ _) with rfl | later
    · exact filled
    · exact ih later
  | trusted machine _ ih => exact ih (by simpa using stored)

theorem split_behind {α : Type} {first rest before after : List α} {given : α}
    (clean : given ∉ first) (split : first ++ rest = before ++ given :: after) :
    ∃ middle, before = first ++ middle ∧ rest = middle ++ given :: after := by
  rcases List.append_eq_append_iff.mp split with ⟨middle, rfl, same⟩ | ⟨middle, rfl, same⟩
  · exact ⟨middle, rfl, same⟩
  · cases middle with
    | nil => exact ⟨[], by simp, by simpa using same.symm⟩
    | cons other middle =>
      cases same
      exact absurd (by simp) clean

/-- A token is stored between the begin of a login and its success. Nothing of the same
caller comes in between. -/
theorem Logins.around {method : AuthMethod} {marks before after : List LoginMark}
    (logins : Logins method marks) {token : String}
    (split : marks = before ++ .stored token :: after) :
    (∃ earlier, before = earlier ++ [.begun]) ∧ ∃ later, after = .ended none :: later := by
  induction logins generalizing before with
  | done => cases before <;> cases split
  | failed halt _ ih =>
    obtain ⟨middle, rfl, rest⟩ := split_behind (by simp : _ ∉ [LoginMark.begun, .ended (some halt)]) split
    obtain ⟨⟨earlier, rfl⟩, later⟩ := ih rest
    exact ⟨⟨_, (List.append_assoc ..).symm⟩, later⟩
  | @granted given marks service filled _ ih =>
    obtain ⟨middle, rfl, rest⟩ := split_behind (by simp : _ ∉ [LoginMark.begun]) split
    cases middle with
    | nil =>
      cases rest
      exact ⟨⟨[], rfl⟩, _, rfl⟩
    | cons other middle =>
      obtain ⟨rfl, tail⟩ := List.cons.inj rest
      obtain ⟨middle, rfl, final⟩ :=
        split_behind (by simp : .stored token ∉ [LoginMark.ended none]) tail
      obtain ⟨⟨earlier, rfl⟩, later⟩ := ih final
      exact ⟨⟨.begun :: .stored given :: .ended none :: earlier, rfl⟩, later⟩
  | trusted machine _ ih =>
    obtain ⟨middle, rfl, rest⟩ := split_behind (by simp : _ ∉ [LoginMark.begun, .ended none]) split
    obtain ⟨⟨earlier, rfl⟩, later⟩ := ih rest
    exact ⟨⟨_, (List.append_assoc ..).symm⟩, later⟩

theorem loginMarks_local {steps : List Step}
    (here : ∀ step ∈ steps, step.effect.isLocal = true) : loginMarks steps = [] := by
  refine List.filterMap_eq_nil_iff.mpr fun step member => ?_
  have kind := here step member
  obtain ⟨effect, outcome⟩ := step
  cases effect with
  | record event =>
    cases event with
    | log level message => rfl
    | _ => cases kind
  | readFile path => rfl
  | writeFile path content => rfl
  | _ => cases kind

/-- What a step tells of the token: it is there, or has just been stored, or is not
needed. -/
def Step.assuresToken : Step → Bool
  | ⟨.readProfile, profile⟩ => profile.hasToken || profile.authMethod = .local
  | ⟨.storeToken _, _⟩ => true
  | _ => false

/-- Steps in which a profile is read that has this authentication method. -/
def ReadsMethod (method : AuthMethod) (steps : List Step) : Prop :=
  ∀ profile, ⟨.readProfile, profile⟩ ∈ steps → profile.authMethod = method

theorem readsMethod_append {method : AuthMethod} {first rest : List Step} :
    ReadsMethod method (first ++ rest) ↔ ReadsMethod method first ∧ ReadsMethod method rest := by
  simp only [ReadsMethod, List.mem_append, or_imp, forall_and]

theorem readsMethod_cons {method : AuthMethod} {step : Step} {rest : List Step}
    (reads : ReadsMethod method (step :: rest)) : ReadsMethod method rest :=
  fun profile member => reads profile (List.mem_cons_of_mem _ member)

namespace Call

variable {client : Client} {call : Call} {options : CallOptions} {method : AuthMethod}

@[simp]
theorem loginMarks_sending (client : Client) (options : CallOptions) (trial : Trial)
    (profile : Profile) (request : Http.Request) (reply : Http.Reply) :
    loginMarks (sending client options trial profile request reply) = [] := by
  unfold sending opening Client.showing indication
  cases client.commands <;> cases options.quiet <;> rfl

@[simp]
theorem loginMarks_indication (options : CallOptions) (event : ProgressEvent) :
    loginMarks ((indication options event).map Step.recorded) = [] := by
  unfold indication
  cases options.quiet <;> rfl

@[simp]
theorem loginMarks_closing (options : CallOptions) (status : Http.Status) :
    loginMarks ((closing options status).map Step.recorded) = [] := by
  rw [closing, List.map_append, loginMarks_append, loginMarks_indication, failureNote]
  cases accepts status <;> cases options.expected.contains status <;> rfl

theorem LoginCourse.logins {steps : List Step} {result : Except (Halt LoginError) Unit}
    (course : LoginCourse client steps result) (login : client.login = .profile)
    (reads : ReadsMethod method steps) : Logins method (loginMarks steps) := by
  cases course with
  | @ended inner _ runs =>
    rw [login] at runs
    have read : ∀ profile, ⟨.readProfile, profile⟩ ∈ inner → profile.authMethod = method :=
      fun profile member => reads profile (by simp [member])
    cases Login.ProfileCourse.of_runs runs with
    | refused message method => exact .failed _ .done
    | trusted message machine => exact .trusted ((read _ (by simp)).symm.trans machine) .done
    | service message service course =>
      cases course with
      | unsent unknown => exact .failed _ .done
      | ungranted known refused => exact .failed _ .done
      | granted note known given =>
        exact .granted ((read _ (by simp)).symm.trans service) (Login.tokenOfReply_isEmpty given)
          .done

/-- A login that succeeds leaves a token, unless none is needed. -/
theorem LoginCourse.assures {steps : List Step} (course : LoginCourse client steps (.ok ()))
    (login : client.login = .profile) : ∃ step ∈ steps, step.assuresToken = true := by
  cases course with
  | @ended inner _ runs =>
    rw [login] at runs
    cases Login.ProfileCourse.of_runs runs with
    | @trusted message profile machine =>
      exact ⟨⟨.readProfile, profile⟩, by simp, by simp [Step.assuresToken, machine]⟩
    | service message service course =>
      cases course with
      | @granted note profile request reply token known given =>
        exact ⟨⟨.storeToken token, ()⟩, by simp, rfl⟩

theorem CredentialCourse.logins {steps : List Step} {result : Except (Halt LoginError) Unit}
    (course : CredentialCourse client steps result) (login : client.login = .profile)
    (reads : ReadsMethod method steps) : Logins method (loginMarks steps) := by
  cases course with
  | cached token => exact .done
  | obtained message missing course =>
    exact course.logins login (readsMethod_cons (readsMethod_cons reads))

theorem CredentialCourse.assures {steps : List Step}
    (course : CredentialCourse client steps (.ok ()))
    (login : client.login = .profile) : ∃ step ∈ steps, step.assuresToken = true := by
  cases course with
  | @cached profile token =>
    exact ⟨⟨.readProfile, profile⟩, by simp, by simp [Step.assuresToken, token]⟩
  | obtained message missing course =>
    obtain ⟨step, member, assures⟩ := course.assures login
    exact ⟨step, by simp [member], assures⟩

theorem LastTrial.loginMarks_eq {trial : Trial} {steps : List Step}
    {result : Except CallError Http.Response}
    (course : LastTrial client call options trial steps result) : loginMarks steps = [] := by
  cases course with
  | failed exchange =>
    cases exchange with
    | unbuilt refused => rfl
    | unanswered built failed => simp
  | settled built final => simp

theorem RefusedTrial.loginMarks_eq {steps : List Step} {request : Http.Request}
    {response : Http.Response} (course : RefusedTrial client call options steps request response) :
    loginMarks steps = [] := by
  cases course with
  | refused built status => simp

theorem loginMarks_log (level : LogLevel) (message : String) (rest : List Step) :
    loginMarks (Step.recorded (.log level message) :: rest) = loginMarks rest := rfl

theorem ResponseCourse.logins {steps : List Step} {result : Except CallError Http.Response}
    (course : ResponseCourse client call options steps result) (login : client.login = .profile)
    (reads : ReadsMethod method steps) : Logins method (loginMarks steps) := by
  cases course with
  | unauthenticated credential => exact credential.logins login reads
  | once credential trial =>
    rw [loginMarks_append, trial.loginMarks_eq, List.append_nil]
    exact credential.logins login (readsMethod_append.mp reads).1
  | unrefreshed message credential first course =>
    obtain ⟨start, reads⟩ := readsMethod_append.mp reads
    have last := readsMethod_cons (readsMethod_append.mp reads).2
    rw [loginMarks_append, loginMarks_append, first.loginMarks_eq, loginMarks_log]
    exact (credential.logins login start).append (course.logins login last)
  | twice message retry credential first refresh trial =>
    obtain ⟨start, reads⟩ := readsMethod_append.mp reads
    have middle := (readsMethod_append.mp (readsMethod_cons (readsMethod_append.mp reads).2)).1
    rw [loginMarks_append, loginMarks_append, first.loginMarks_eq, loginMarks_log,
      loginMarks_append, loginMarks_log, trial.loginMarks_eq, List.append_nil]
    exact (credential.logins login start).append (refresh.logins login middle)

/-- The logins of a whole call. What is done with the response has no part in them. -/
theorem Course.logins {steps : List Step} {outcome : CallOptions × Except CallError Payload}
    (course : Course client call options steps outcome) (login : client.login = .profile)
    (reads : ReadsMethod method steps) : Logins method (loginMarks steps) := by
  cases course with
  | whole message response handled =>
    rw [loginMarks_log, loginMarks_append,
      loginMarks_local ((finishing_isLocal call options _).steps handled), List.append_nil]
    exact response.logins login (readsMethod_append.mp (readsMethod_cons reads)).1

/-- The request of a call is made of the profile as it has been read, and there has been
a token before that. -/
def Prepared (client : Client) (call : Call) (options : CallOptions) (earlier : List Step) :
    Step → Prop
  | ⟨.send .call request, _⟩ => ∃ before profile after built,
      earlier = before ++ ⟨.readProfile, profile⟩ :: after ∧
        profile.requestOf call options = .ok built ∧ request = built.sentBy client.userAgent ∧
        ∃ step ∈ before, step.assuresToken = true
  | _ => True

/-- Steps all of whose requests are prepared, by them or by what was before. What was before
grows along the steps, so that what is said of each request is about all that its sender
has done until then. -/
def AllPrepared (client : Client) (call : Call) (options : CallOptions) :
    (earlier : List Step) → List Step → Prop
  | _, [] => True
  | earlier, step :: rest =>
    Prepared client call options earlier step ∧
      AllPrepared client call options (earlier ++ [step]) rest

theorem allPrepared_append {earlier first rest : List Step} :
    AllPrepared client call options earlier (first ++ rest) ↔
      AllPrepared client call options earlier first ∧
        AllPrepared client call options (earlier ++ first) rest := by
  induction first generalizing earlier with
  | nil => simp [AllPrepared]
  | cons step first ih =>
    simp only [List.cons_append, AllPrepared, ih, and_assoc, List.append_assoc, List.nil_append]

theorem AllPrepared.of_split {earlier steps before after : List Step} {step : Step}
    (prepared : AllPrepared client call options earlier steps)
    (split : steps = before ++ step :: after) :
    Prepared client call options (earlier ++ before) step := by
  rw [split, allPrepared_append] at prepared
  exact prepared.2.1

/-- Where no call is made, there is nothing to prepare. -/
theorem AllPrepared.of_silent {earlier steps : List Step}
    (silent : exchanges (proceedings steps) = []) :
    AllPrepared client call options earlier steps := by
  induction steps generalizing earlier with
  | nil => exact True.intro
  | cons step rest ih =>
    rw [← List.singleton_append, proceedings_append, exchanges_append,
      List.append_eq_nil_iff] at silent
    refine ⟨?_, ih silent.2⟩
    obtain ⟨effect, outcome⟩ := step
    cases effect with
    | send purpose request =>
      cases purpose with
      | call => cases silent.1
      | token => exact True.intro
    | _ => exact True.intro

theorem AllPrepared.sending {earlier : List Step} {trial : Trial} {profile : Profile}
    {request : Http.Request} {reply : Http.Reply}
    (assured : ∃ step ∈ earlier, step.assuresToken = true)
    (built : profile.requestOf call options = .ok request) :
    AllPrepared client call options earlier
      (sending client options trial profile request reply) := by
  have opened : exchanges (proceedings
      ((opening client options trial request).map Step.recorded)) = [] := by
    unfold opening Client.showing indication
    cases client.commands <;> cases options.quiet <;> rfl
  refine ⟨True.intro, allPrepared_append.mpr ⟨.of_silent opened, ?_, True.intro⟩⟩
  exact ⟨earlier, profile, _, request, List.append_assoc .., built, rfl, assured⟩

theorem LastTrial.prepared {earlier steps : List Step} {trial : Trial}
    {result : Except CallError Http.Response}
    (course : LastTrial client call options trial steps result)
    (assured : ∃ step ∈ earlier, step.assuresToken = true) :
    AllPrepared client call options earlier steps := by
  cases course with
  | failed exchange =>
    cases exchange with
    | unbuilt refused => exact ⟨True.intro, True.intro⟩
    | unanswered built failed =>
      exact allPrepared_append.mpr ⟨.sending assured built, .of_silent (by simp [exchanges])⟩
  | settled built final =>
    exact allPrepared_append.mpr ⟨.sending assured built, .of_silent (by simp [exchanges])⟩

theorem RefusedTrial.prepared {earlier steps : List Step} {request : Http.Request}
    {response : Http.Response} (course : RefusedTrial client call options steps request response)
    (assured : ∃ step ∈ earlier, step.assuresToken = true) :
    AllPrepared client call options earlier steps := by
  cases course with
  | refused built status =>
    exact allPrepared_append.mpr ⟨.sending assured built, .of_silent (by simp [exchanges])⟩

theorem CredentialCourse.silent {steps : List Step} {result : Except (Halt LoginError) Unit}
    (course : CredentialCourse client steps result) : exchanges (proceedings steps) = [] := by
  cases course with
  | cached token => rfl
  | obtained message missing login =>
    rw [proceedings_readProfile, proceedings_log, login.proceedings_eq]
    rfl

theorem LoginCourse.silent {steps : List Step} {result : Except (Halt LoginError) Unit}
    (course : LoginCourse client steps result) : exchanges (proceedings steps) = [] := by
  rw [course.proceedings_eq]
  rfl

/-- Every request of a call comes behind a reading of the profile, and behind a sign of a
token: it was found, or the login that was made for it has succeeded. -/
theorem ResponseCourse.prepared {earlier steps : List Step}
    {result : Except CallError Http.Response}
    (course : ResponseCourse client call options steps result) (login : client.login = .profile) :
    AllPrepared client call options earlier steps := by
  have behind : ∀ {first rest : List Step}, (∃ step ∈ first, step.assuresToken = true) →
      ∃ step ∈ first ++ rest, step.assuresToken = true := by
    rintro first rest ⟨step, member, assures⟩
    exact ⟨step, List.mem_append_left _ member, assures⟩
  have reached : ∀ {before : List Step}, CredentialCourse client before (.ok ()) →
      ∃ step ∈ earlier ++ before, step.assuresToken = true := by
    intro before credential
    obtain ⟨step, member, assures⟩ := credential.assures login
    exact ⟨step, List.mem_append_right _ member, assures⟩
  cases course with
  | unauthenticated credential => exact .of_silent credential.silent
  | once credential trial =>
    exact allPrepared_append.mpr ⟨.of_silent credential.silent, trial.prepared (reached credential)⟩
  | unrefreshed message credential first course =>
    refine allPrepared_append.mpr ⟨.of_silent credential.silent, allPrepared_append.mpr
      ⟨first.prepared (reached credential), .of_silent ?_⟩⟩
    rw [proceedings_log, course.silent]
  | twice message retry credential first refresh trial =>
    refine allPrepared_append.mpr ⟨.of_silent credential.silent, allPrepared_append.mpr
      ⟨first.prepared (reached credential), True.intro, allPrepared_append.mpr
        ⟨.of_silent refresh.silent, True.intro, trial.prepared ?_⟩⟩⟩
    exact behind (behind (behind (behind (reached credential))))

/-- All requests of a whole call are prepared. -/
theorem Course.prepared {steps : List Step} {outcome : CallOptions × Except CallError Payload}
    (course : Course client call options steps outcome) (login : client.login = .profile) :
    AllPrepared client call options [] steps := by
  cases course with
  | whole message response handled =>
    refine ⟨True.intro, allPrepared_append.mpr ⟨response.prepared login, .of_silent ?_⟩⟩
    rw [finishing_proceedings handled]
    rfl

end Call

end PlatformClient
