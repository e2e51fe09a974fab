import PlatformClient.Proofs.Moments

namespace PlatformClient

namespace Call

variable {token : Bool} {order : List Moment} {result : Except CallError Http.Response}

theorem Protocol.exchanges_le (protocol : Protocol token order result) :
    (exchanges order).length ≤ 2 := by
  cases protocol with
  | unauthenticated => simp [exchanges]
  | once credential trial => cases credential <;> cases trial <;> simp [exchanges]
  | unrefreshed request halt error credential refused => cases credential <;> simp [exchanges]
  | twice request credential refused trial =>
    cases credential <;> cases trial <;> simp [exchanges]

theorem Protocol.first_login (protocol : Protocol token order result) :
    (order.takeWhile (!·.isExchange)).count .loginBegun = if token then 0 else 1 := by
  cases protocol with
  | unauthenticated halt error missing => simp [missing, Moment.isExchange]
  | once credential trial => cases credential <;> cases trial <;> simp [Moment.isExchange]
  | unrefreshed request halt error credential refused =>
    cases credential <;> simp [Moment.isExchange]
  | twice request credential refused trial => cases credential <;> simp [Moment.isExchange]

/-- Whether the first exchange of a call refuses the token. -/
def firstRefused (order : List Moment) : Bool := (exchanges order).head?.any (·.2.isRefusal)

theorem Protocol.second_login (protocol : Protocol token order result) :
    (order.dropWhile (!·.isExchange)).count .loginBegun =
      if firstRefused order then 1 else 0 := by
  cases protocol with
  | unauthenticated halt error missing => simp [Moment.isExchange, firstRefused, exchanges]
  | once credential trial =>
    cases trial with
    | unsent error => cases credential <;> simp [Moment.isExchange, firstRefused, exchanges]
    | sent final decided =>
      cases credential <;> simp [Moment.isExchange, firstRefused, exchanges, final rfl]
  | unrefreshed request halt error credential refused =>
    cases credential <;>
      simp [Moment.isExchange, firstRefused, exchanges, Http.Reply.isRefusal, refused]
  | twice request credential refused trial =>
    cases credential <;> cases trial <;>
      simp [Moment.isExchange, firstRefused, exchanges, Http.Reply.isRefusal, refused]

/-- A second exchange has a refusal and a login with success in front of it, and decides the
call. Of the orders that a call can take only one holds two exchanges, and nothing stands
between them but that login. -/
theorem Protocol.second_exchange (protocol : Protocol token order result)
    {first second : Http.Request × Http.Reply} (both : exchanges order = [first, second]) :
    first.2.isRefusal = true ∧
      (∃ login, order = login ++ [.exchange first.1 first.2, .loginBegun, .loginEnded none,
        .exchange second.1 second.2]) ∧
      ∀ response, second.2 = .answered response → result = verdict response := by
  cases protocol with
  | unauthenticated halt error missing => simp [exchanges] at both
  | once credential trial => cases credential <;> cases trial <;> simp [exchanges] at both
  | unrefreshed request halt error credential refused =>
    cases credential <;> simp [exchanges] at both
  | @twice login last request response result credential refused trial =>
    cases trial with
    | unsent error => cases credential <;> simp [exchanges] at both
    | sent final decided =>
      have none : exchanges login = [] := by cases credential <;> rfl
      rw [exchanges_append, none] at both
      cases both
      exact ⟨by simp [Http.Reply.isRefusal, refused], ⟨login, rfl⟩, decided⟩

/-- The order that something may follow: the begin of a login, its success, and
a refusal of the token by the first exchange. -/
def goesOn (sent : Bool) : Moment → Bool
  | .loginBegun => true
  | .loginEnded halt => halt.isNone
  | .exchange _ reply => !sent && reply.isRefusal
  | .indication _ => false

/-- Only what may be followed is followed. `sent` tells of the exchanges before. -/
def Orderly : (sent : Bool) → List Moment → Prop
  | _, [] => True
  | sent, moment :: rest =>
    (rest = [] ∨ goesOn sent moment = true) ∧ Orderly (sent || moment.isExchange) rest

theorem Orderly.goesOn_of_split {sent : Bool} {before after : List Moment} {moment : Moment}
    (orderly : Orderly sent (before ++ moment :: after)) (followed : after ≠ []) :
    goesOn (sent || before.any Moment.isExchange) moment = true := by
  induction before generalizing sent with
  | nil => simpa [followed] using orderly.1
  | cons first before ih => simpa [Bool.or_assoc] using ih orderly.2

theorem Protocol.orderly (protocol : Protocol token order result) : Orderly false order := by
  cases protocol with
  | unauthenticated halt error missing => simp [Orderly, goesOn]
  | once credential trial => cases credential <;> cases trial <;> simp [Orderly, goesOn]
  | unrefreshed request halt error credential refused =>
    cases credential <;>
      simp [Orderly, goesOn, Moment.isExchange, Http.Reply.isRefusal, refused]
  | twice request credential refused trial =>
    cases credential <;> cases trial <;>
      simp [Orderly, goesOn, Moment.isExchange, Http.Reply.isRefusal, refused]

theorem verdict_forbidden {response : Http.Response} (refused : response.status = Http.forbidden) :
    verdict response = .error (.status (.classify Http.forbidden response.body)) := by
  have rejected : accepts Http.forbidden = false := by decide
  simp [verdict, refused, rejected]

theorem StatusError.classify_status (status : Http.Status) (body : Bytes) :
    (StatusError.classify status body).status = status := by
  simp only [StatusError.classify, StatusError.readings, List.findSome?_cons,
    StatusError.ofProblem?, StatusError.ofDocument?]
  cases (Problem.readNullable body).toOption with
  | some problem => rfl
  | none => cases (Json.read body).toOption <;> rfl

/-- What a call may do of logins and exchanges, whatever these come to. The bounds alone
would leave the order open: `followed` says of every moment whether anything may come behind
it, so that there is no place in a call for another trial. -/
structure RetryProtocol (steps : List Step) (outcome : Except CallError Payload) : Prop where
  exchanges_le : (exchanges (proceedings steps)).length ≤ 2
  logins_le : (proceedings steps).count .loginBegun ≤ 2
  /-- There is a login in front of the first exchange exactly if no token is found. -/
  first_login : ∃ profile, foundProfile? steps = some profile ∧
    ((proceedings steps).takeWhile (!·.isExchange)).count .loginBegun =
      if profile.hasToken then 0 else 1
  /-- There is one behind it exactly if that ends with a whole response that
  refuses the token. -/
  second_login : ((proceedings steps).dropWhile (!·.isExchange)).count .loginBegun =
    if firstRefused (proceedings steps) then 1 else 0
  second_exchange : ∀ first second,
    exchanges (proceedings steps) = [first, second] → first.2.isRefusal = true ∧
      ∃ login, proceedings steps = login ++ [.exchange first.1 first.2, .loginBegun,
        .loginEnded none, .exchange second.1 second.2]
  /-- No other end of an exchange, no failed login and no second exchange is
  followed by anything. -/
  followed : ∀ before moment after, proceedings steps = before ++ moment :: after →
    after ≠ [] → moment = .loginBegun ∨ moment = .loginEnded none ∨
      ∃ request reply, moment = .exchange request reply ∧ reply.isRefusal = true ∧
        exchanges before = []
  second_refusal : ∀ first request response,
    exchanges (proceedings steps) = [first, (request, .answered response)] →
      response.status = Http.forbidden →
        ∃ error, outcome = .error (.status error) ∧ error.status = Http.forbidden

theorem Protocol.logins_le (protocol : Protocol token order result) :
    order.count .loginBegun ≤ 2 := by
  have first := protocol.first_login
  have second := protocol.second_login
  rw [← List.takeWhile_append_dropWhile (p := (!·.isExchange)) (l := order), List.count_append]
  split at first <;> split at second <;> omega

/-- Every run of a call keeps the protocol. Nothing is assumed about what the profile, the
logins, the remote side and the files give: a run takes one of the courses of a call, and
among these a refusal of the first trial alone leads on to another exchange. -/
theorem retry_protocol {client : Client} {call : Call} {options : CallOptions} {steps : List Step}
    {outcome : CallOptions × Except CallError Payload}
    (runs : (execute client call options).Runs steps outcome) :
    RetryProtocol steps outcome.2 := by
  obtain ⟨profile, result, found, protocol, failed⟩ := (Course.of_runs runs).protocol
  exact {
    exchanges_le := protocol.exchanges_le
    logins_le := protocol.logins_le
    first_login := ⟨profile, found, protocol.first_login⟩
    second_login := protocol.second_login
    second_exchange := fun first second both =>
      ⟨(protocol.second_exchange both).1, (protocol.second_exchange both).2.1⟩
    followed := by
      intro before moment after split followed
      have orderly := protocol.orderly
      rw [split] at orderly
      have goes := orderly.goesOn_of_split followed
      cases moment with
      | loginBegun => exact Or.inl rfl
      | loginEnded halt =>
        cases halt with
        | none => exact Or.inr (Or.inl rfl)
        | some halt => cases goes
      | exchange request reply =>
        simp only [goesOn, Bool.false_or, Bool.and_eq_true, Bool.not_eq_true'] at goes
        exact Or.inr (Or.inr ⟨request, reply, rfl, goes.2, exchanges_eq_nil goes.1⟩)
      | indication event => cases goes
    -- The second exchange decides the call, and a refusal is no success.
    second_refusal := by
      intro first request response both refused
      have decided := (protocol.second_exchange both).2.2 response rfl
      rw [verdict_forbidden refused] at decided
      exact ⟨_, by rw [failed _ decided], StatusError.classify_status ..⟩ }

end Call

/-- The plain status of success. -/
def Http.ok : Http.Status := ⟨200, by decide, by decide⟩

/-- A platform that takes no token for good, whatever token it gives out. -/
def refusingWorld : World where
  profile := {
    url := "http://platform.example", authMethod := .servicePrincipal, token := "stale"
    tenantId := "t1", clientId := "svc", clientSecret := "s3cret" }
  files := Files.emptyAt ["work"]
  remote := .script [
    .answer (.response Http.forbidden [] []),
    .answer (.response Http.ok []
      (Text.encode "\x7b\"access_token\":\"fresh\"\x7d")),
    .answer (.response Http.forbidden [] [])]

/-- A client that logs in as the profile says and hands over its commands. -/
def Client.handing : Client := ⟨.profile, .handed, none⟩

/-- The call for a list of objects. -/
def Call.forObjects : Call := ⟨.get, "/objects", none⟩

/-- A second refusal is final: there are two exchanges, one login in between, and
no other behind them. -/
theorem Call.retry_protocol_refused_twice :
    (exchanges (proceedings (refusingWorld.steps (execute .handing .forObjects {})))).length = 2 ∧
    RetryProtocol (refusingWorld.steps (execute .handing .forObjects {}))
      (refusingWorld.run (execute .handing .forObjects {})).1.2 :=
  ⟨by decide +kernel, retry_protocol (refusingWorld.runs_steps _)⟩

end PlatformClient
