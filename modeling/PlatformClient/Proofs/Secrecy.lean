import PlatformClient.Command.Execution
import PlatformClient.Proofs.AlikeExecution
import PlatformClient.Proofs.Arrangement
import PlatformClient.Proofs.RetryProtocol

namespace PlatformClient

/-- Options of a command line that differ in the values of authorizations at most. -/
structure CallFlags.Alike (flags other : CallFlags) : Prop where
  headers : List.Forall₂ (fun text otherText =>
    AlikeResults AlikeAsked (Command.readHeader text) (Command.readHeader otherText))
    flags.headers other.headers
  rest : other = { flags with headers := other.headers }

namespace Command

/-- Commands that differ in the values of authorizations at most. -/
inductive Alike : Command → Command → Prop
  | get (path : String) (accept : Option String) {call other : CallFlags}
      (calls : call.Alike other) : Alike (.get path accept call) (.get path accept other)
  | delete (path : String) {call other : CallFlags} (calls : call.Alike other) :
      Alike (.delete path call) (.delete path other)
  | post (path : String) (body : BodyFlags) {call other : CallFlags} (calls : call.Alike other) :
      Alike (.post path body call) (.post path body other)
  | put (path : String) (body : BodyFlags) {call other : CallFlags} (calls : call.Alike other) :
      Alike (.put path body call) (.put path body other)
  | patch (path : String) (body : BodyFlags) {call other : CallFlags} (calls : call.Alike other) :
      Alike (.patch path body call) (.patch path body other)
  | request (method path : String) (body : BodyFlags) {call other : CallFlags}
      (calls : call.Alike other) :
      Alike (.request method path body call) (.request method path body other)
  | login : Alike .login .login

theorem readHeaders_alike {texts others : List String}
    (alike : List.Forall₂ (fun text other =>
      AlikeResults AlikeAsked (readHeader text) (readHeader other)) texts others) :
    AlikeResults CallerHeaders.Alike (readHeaders texts) (readHeaders others) := by
  refine AlikeResults.foldlM alike (fun headers otherHeaders text otherText so given => ?_) .nil
  refine given.map fun header otherHeader asked => ?_
  obtain ⟨name, value⟩ := header
  obtain ⟨otherName, otherValue⟩ := otherHeader
  obtain rfl : name = otherName := asked.name
  exact so.set asked

theorem callOptions_alike {call other : CallFlags} (quiet : Bool) (now : Nat)
    (alike : call.Alike other) :
    AlikeResults CallOptions.Alike (callOptions call quiet now) (callOptions other quiet now) := by
  have expected : other.expected = call.expected := by rw [alike.rest]
  have output : other.output = call.output := by rw [alike.rest]
  have timeout : other.timeout = call.timeout := by rw [alike.rest]
  unfold callOptions
  rw [expected, output, timeout]
  refine ((readHeaders_alike alike.headers).mapError OptionsError.input).bind
    fun headers otherHeaders asked => ?_
  refine AlikeResults.bind (.refl (fun _ => rfl)
    ((readStatuses call.expected).mapError OptionsError.input)) fun statuses _ same => ?_
  subst same
  have named : CallOptions.Alike { headers, expected := statuses, quiet, cancellable := true }
      { headers := otherHeaders, expected := statuses, quiet, cancellable := true } := ⟨asked, rfl⟩
  have saved := named.set fileNameHeader
  simp only []
  cases call.output with
  | none =>
    cases call.timeout with
    | none => exact .ok named
    | some seconds =>
      simp only []
      split
      · exact .error _
      · exact .ok ⟨asked, rfl⟩
  | some fileName =>
    cases call.timeout with
    | none => exact .ok (saved fileName)
    | some seconds =>
      simp only []
      split
      · exact .error _
      · exact .ok ⟨(saved fileName).headers, rfl⟩

variable {client : Client} {options other : CallOptions}

theorem shown_alike {program otherProgram : Program (CallOptions × Except CallError (Option Json))}
    (alike : Program.Alike Call.AlikeEnds program otherProgram) :
    Program.Alike (· = ·) (do let (_, result) ← program; return shown result)
      (do let (_, result) ← otherProgram; return shown result) :=
  alike.bind fun _ _ ends => .done (by rw [ends.2])

theorem formatted_alike {program otherProgram : Program (CallOptions × Except CallError Payload)}
    (alike : Program.Alike Call.AlikeEnds program otherProgram) :
    Program.Alike (· = ·)
      (do let (_, result) ← program; return (result.mapError .call).map Payload.format? :
        Program Result)
      (do let (_, result) ← otherProgram; return (result.mapError .call).map Payload.format?) :=
  alike.bind fun _ _ ends => .done (by rw [ends.2])

theorem runGet_alike (path : String) (accept : Option String) (discreet : client.login.Discreet)
    (alike : options.Alike other) :
    Program.Alike (· = ·) (runGet client path accept options)
      (runGet client path accept other) := by
  unfold runGet
  cases accept with
  | none => exact shown_alike (Call.document_alike .get path none discreet alike)
  | some type => exact formatted_alike (Call.execute_alike _ discreet (alike.set "accept" type))

theorem runDelete_alike (path : String) (discreet : client.login.Discreet)
    (alike : options.Alike other) :
    Program.Alike (· = ·) (runDelete client path options) (runDelete client path other) := by
  unfold runDelete
  exact (Call.delete_alike path discreet alike).bind fun _ _ ends => .done (by rw [ends.2])

theorem runBytes_alike (method : Http.Method) (path : String) (content : Bytes)
    (type : Option String) (discreet : client.login.Discreet) (alike : options.Alike other) :
    Program.Alike (· = ·) (runBytes client method path content type options)
      (runBytes client method path content type other) := by
  have sent : ∀ {options other : CallOptions}, options.Alike other →
      Program.Alike (· = ·) (runBytes client method path content none options)
        (runBytes client method path content none other) := by
    intro options other alike
    unfold runBytes
    simp only []
    split
    · exact shown_alike (Call.decoded_alike _ discreet alike)
    · exact formatted_alike (Call.execute_alike _ discreet alike)
  cases type with
  | none => exact sent alike
  | some type => exact sent (alike.set "content-type" type)

theorem readBody_alike (flags : BodyFlags) :
    Program.Alike (AlikeResults (· = ·)) (readBody flags).run (readBody flags).run := by
  unfold readBody
  cases flags.data with
  | some data =>
    exact Attempt.alike_bind (Attempt.alike_result (.refl (fun _ => rfl) _)) fun _ _ same =>
      Attempt.alike_result (.ok (by rw [same]))
  | none =>
    cases flags.dataFile with
    | none => exact Attempt.alike_result (.ok rfl)
    | some path =>
      refine Attempt.alike_bind (Attempt.alike_lift (Program.alike_readFile path))
        fun given _ same => ?_
      subst same
      cases given with
      | error fault => exact Attempt.alike_result (.error _)
      | ok content =>
        exact Attempt.alike_bind (Attempt.alike_result (.refl (fun _ => rfl) _)) fun _ _ same =>
          Attempt.alike_result (.ok (by rw [same]))

theorem runWithBody_alike (method : Http.Method) (path : String) (body : BodyFlags)
    (discreet : client.login.Discreet) (alike : options.Alike other) :
    Program.Alike (· = ·) (runWithBody client method path body options)
      (runWithBody client method path body other) := by
  unfold runWithBody
  refine (readBody_alike body).bind fun given _ results => ?_
  obtain rfl := results.eq_of_eq
  match given with
  | .error error => exact .done rfl
  | .ok none => exact shown_alike (Call.document_alike method path none discreet alike)
  | .ok (some (.bytes content)) => exact runBytes_alike method path content _ discreet alike
  | .ok (some (.document value)) =>
    exact shown_alike (Call.document_alike method path (some (.ok value)) discreet alike)

theorem runLogin_alike (discreet : client.login.Discreet) :
    Program.Alike (· = ·) (runLogin client) (runLogin client) := by
  unfold runLogin
  refine (Client.logIn_alike discreet).bind fun result _ results => ?_
  obtain rfl := results.eq_of_eq
  match result with
  | .error (.failed error) => exact .done rfl
  | .error (.interrupted why) => exact .done rfl
  | .ok () =>
    exact Program.alike_readProfile.bind fun _ _ profiles =>
      .done (by rw [profiles.authMethod_eq])

theorem withOptions_alike {call other : CallFlags} {next : CallOptions → Program Result}
    (quiet : Bool) (now : Nat) (calls : call.Alike other)
    (alike : ∀ options otherOptions : CallOptions, options.Alike otherOptions →
      Program.Alike (· = ·) (next options) (next otherOptions)) :
    Program.Alike (· = ·) (withOptions call quiet now next) (withOptions other quiet now next) := by
  have given := callOptions_alike quiet now calls
  unfold withOptions
  generalize callOptions call quiet now = result, callOptions other quiet now = otherResult
    at given ⊢
  cases given with
  | error error => cases error <;> exact .done rfl
  | ok options => exact (alike _ _ options).bind fun _ _ same => .done (by rw [same])

/-- Alike commands take alike steps to the same result. The case of each command follows
from that of the call for which it stands. -/
theorem run_alike {command other : Command} (quiet : Bool) (now : Nat)
    (discreet : client.login.Discreet) (alike : command.Alike other) :
    Program.Alike (· = ·) (run client quiet now command) (run client quiet now other) := by
  cases alike with
  | get path accept calls =>
    exact withOptions_alike quiet now calls fun _ _ => runGet_alike path accept discreet
  | delete path calls =>
    exact withOptions_alike quiet now calls fun _ _ => runDelete_alike path discreet
  | post path body calls =>
    exact withOptions_alike quiet now calls fun _ _ => runWithBody_alike .post path body discreet
  | put path body calls =>
    exact withOptions_alike quiet now calls fun _ _ => runWithBody_alike .put path body discreet
  | patch path body calls =>
    exact withOptions_alike quiet now calls fun _ _ => runWithBody_alike .patch path body discreet
  | request method path body calls =>
    simp only [run]
    cases readMethod method with
    | error error => exact .done rfl
    | ok method =>
      exact withOptions_alike quiet now calls fun _ _ => runWithBody_alike method path body discreet
  | login => exact (runLogin_alike discreet).bind fun _ _ same => .done (by rw [same])

end Command

/-- What a program makes known of itself: the events for the indicator of progress,
the commands that repeat requests, and the log. -/
def announcements (steps : List Step) : List Event :=
  steps.filterMap fun
    | ⟨.record event, _⟩ => some event
    | _ => none

/-- The requests that are sent, those of calls and those for tokens. -/
def sentRequests (steps : List Step) : List (Purpose × Http.Request) :=
  steps.filterMap fun
    | ⟨.send purpose request, _⟩ => some (purpose, request)
    | _ => none

theorem announcements_eq {steps others : List Step} (alike : List.Forall₂ Step.Alike steps others) :
    announcements others = announcements steps := by
  induction alike with
  | nil => rfl
  | cons same _ ih =>
    cases same with
    | record event => exact congrArg (List.cons event) ih
    | _ => exact ih

theorem sentRequests_alike {steps others : List Step}
    (alike : List.Forall₂ Step.Alike steps others) :
    List.Forall₂ (fun sent otherSent => sent.1 = otherSent.1 ∧ sent.2.Alike otherSent.2)
      (sentRequests steps) (sentRequests others) := by
  refine List.rel_filterMap (R := Step.Alike) (fun step otherStep same => ?_) alike
  cases same with
  | call requests reply => exact .some ⟨rfl, requests⟩
  | token requests grants => exact .some ⟨rfl, requests⟩
  | _ => exact .none

/-- Two runs of commands that show the same to everyone but the one who reads the
authorizations of requests. What is shown is the result with its exit code and output, what
is made known, and the files; requests may differ in that one header. -/
structure SameView (client : Client) (quiet : Bool) (now : Nat) (world otherWorld : World)
    (command other : Command) : Prop where
  result : (otherWorld.run (other.run client quiet now)).1 =
    (world.run (command.run client quiet now)).1
  /-- The exit code, the output and the errors. -/
  outcome : (otherWorld.run (other.run client quiet now)).1.map Command.outcome =
    (world.run (command.run client quiet now)).1.map Command.outcome
  announcements : announcements (otherWorld.steps (other.run client quiet now)) =
    announcements (world.steps (command.run client quiet now))
  requests : List.Forall₂ (fun sent otherSent => sent.1 = otherSent.1 ∧ sent.2.Alike otherSent.2)
    (sentRequests (world.steps (command.run client quiet now)))
    (sentRequests (otherWorld.steps (other.run client quiet now)))
  files : (otherWorld.run (other.run client quiet now)).2.files =
    (world.run (command.run client quiet now)).2.files

theorem SameView.of_alike {client : Client} {world otherWorld : World} {command other : Command}
    (quiet : Bool) (now : Nat) (discreet : client.login.Discreet)
    (commands : command.Alike other) (worlds : world.Alike otherWorld) :
    SameView client quiet now world otherWorld command other := by
  obtain ⟨result, steps, final⟩ :=
    World.run_alike (Command.run_alike quiet now discreet commands) worlds
  exact {
    result := result.symm
    outcome := by rw [result]
    announcements := announcements_eq steps
    requests := sentRequests_alike steps
    files := final.files.symm }

/-- The other sides of two runs: the same from the start, or two that give the same replies
to calls, and to requests for tokens replies that differ at most in the token. In the second
case nothing is said of how they come to these replies. -/
inductive AlikeOtherSides {α : Type} (world otherWorld : World) (program otherProgram : Program α) :
    Prop
  | same (remote : world.remote = otherWorld.remote)
  | following (calls : List Http.Reply) {tokens others : List Http.Reply}
      (alike : List.Forall₂ AlikeGrants tokens others)
      (follows : world.Follows program calls tokens)
      (otherFollows : otherWorld.Follows otherProgram calls others)

/-- Secrets reach the values of authorizations only. Commands that differ in these, with
profiles and logins that differ in secrets, show the same. The two programs stay alike step
by step, and alike steps have everything in common that can be seen outside of an
authorization. -/
theorem Command.secrecy {client : Client} {world otherWorld : World} {command other : Command}
    (quiet : Bool) (now : Nat) (login : client.login = .profile ∨ client.login = .elsewhere)
    (commands : command.Alike other) (profiles : world.profile.Alike otherWorld.profile)
    (files : world.files = otherWorld.files)
    (logins : List.Forall₂ LoginStep.Alike world.logins otherWorld.logins)
    (remotes : AlikeOtherSides world otherWorld (command.run client quiet now)
      (other.run client quiet now)) :
    SameView client quiet now world otherWorld command other := by
  have discreet : client.login.Discreet := by
    rcases login with same | same <;> rw [same]
    · exact LoginProcedure.profile_discreet
    · exact LoginProcedure.elsewhere_discreet
  cases remotes with
  | same remote =>
    exact .of_alike quiet now discreet commands
      ⟨profiles, files, by rw [remote]; exact .same _, logins⟩
  | @following calls tokens others alike follows otherFollows =>
    have view : SameView client quiet now { world with remote := .arranged calls tokens }
        { otherWorld with remote := .arranged calls others } command other :=
      .of_alike quiet now discreet commands ⟨profiles, files, .arranged calls alike, logins⟩
    obtain ⟨steps, result, written⟩ := follows.run_arranged
    obtain ⟨otherSteps, otherResult, otherWritten⟩ := otherFollows.run_arranged
    obtain ⟨results, outcomes, announced, requests, left⟩ := view
    rw [steps, otherSteps] at announced requests
    rw [result, otherResult] at results outcomes
    rw [written, otherWritten] at left
    exact ⟨results, outcomes, announced, requests, left⟩

/-- A grant of a token. -/
def grantOf (token : String) : Http.Response :=
  ⟨Http.ok, .empty,
    Text.encode ("\x7b\"access_token\":\"" ++ token ++ "\"\x7d")⟩

/-- A platform that refuses the old token and takes the one that it gives out. -/
def secretiveWorld (old secret fresh : String) : World where
  profile := {
    url := "http://platform.example", authMethod := .servicePrincipal, token := old
    tenantId := "t1", clientId := "svc", clientSecret := secret }
  files := Files.emptyAt ["work"]
  remote := .script [
    .answer (.response Http.forbidden [] []),
    .answer (.response (grantOf fresh).status [] (grantOf fresh).body),
    .answer (.response Http.ok [] (Text.encode "[1]"))]

/-- What that platform replies to calls. -/
def secretiveReplies : List Http.Reply :=
  [.answered ⟨Http.forbidden, .empty, []⟩,
    .answered ⟨Http.ok, .empty, Text.encode "[1]"⟩]

/-- Asks for a list under an authorization of the caller. -/
def authorizedGet (authorization : String) : Command :=
  .get "/objects" none { headers := [authorization] }

theorem authorizedGet_alike :
    (authorizedGet "Authorization=Basic eA==").Alike
      (authorizedGet "Authorization=Basic eQ==") := by
  have first : Command.readHeader "Authorization=Basic eA==" =
    .ok ("Authorization", "Basic eA==") := rfl
  have second : Command.readHeader "Authorization=Basic eQ==" =
    .ok ("Authorization", "Basic eQ==") := rfl
  have asked : AlikeAsked ("Authorization", "Basic eA==") ("Authorization", "Basic eQ==") :=
    ⟨rfl, Or.inr ⟨by decide, by decide, by decide⟩, fun other => absurd (by decide) other⟩
  refine .get _ _ ⟨.cons ?_ .nil, rfl⟩
  rw [first, second]
  exact .ok asked

theorem eq_ok_of_toOption {ε α : Type} {result : Except ε α} {value : α}
    (found : result.toOption = some value) : result = .ok value := by
  cases result with
  | error error => cases found
  | ok given => rw [Option.some.inj found]

/-- Two calls with authorizations of their own, each of which is refused before a
login with secrets of its own, look the same. -/
theorem Command.secrecy_of_refresh :
    (sentRequests ((secretiveWorld "stale" "s3cret" "fresh").steps
      ((authorizedGet "Authorization=Basic eA==").run .handing false 0))).map (·.1) =
        [.call, .token, .call] ∧
    SameView .handing false 0 (secretiveWorld "stale" "s3cret" "fresh")
      (secretiveWorld "old" "hidden" "new") (authorizedGet "Authorization=Basic eA==")
      (authorizedGet "Authorization=Basic eQ==") := by
  have fresh : Login.readGrant (grantOf "fresh").body = .ok "fresh" :=
    eq_ok_of_toOption (by decide +kernel)
  have new : Login.readGrant (grantOf "new").body = .ok "new" :=
    eq_ok_of_toOption (by decide +kernel)
  have grants : AlikeGrants (.answered (grantOf "fresh")) (.answered (grantOf "new")) :=
    .granted (by decide) (by decide) fresh new (Or.inr ⟨by decide, by decide, by decide⟩)
  have profiles : (secretiveWorld "stale" "s3cret" "fresh").profile.Alike
      (secretiveWorld "old" "hidden" "new").profile :=
    ⟨Or.inr ⟨by decide, by decide, by decide⟩, by decide, rfl⟩
  have run : (sentRequests ((secretiveWorld "stale" "s3cret" "fresh").steps
        ((authorizedGet "Authorization=Basic eA==").run .handing false 0))).map (·.1) =
          [.call, .token, .call] ∧
      replies .call ((secretiveWorld "stale" "s3cret" "fresh").steps
        ((authorizedGet "Authorization=Basic eA==").run .handing false 0)) <+: secretiveReplies ∧
      replies .token ((secretiveWorld "stale" "s3cret" "fresh").steps
        ((authorizedGet "Authorization=Basic eA==").run .handing false 0)) <+:
          [.answered (grantOf "fresh")] := by
    decide +kernel
  have otherRun : replies .call ((secretiveWorld "old" "hidden" "new").steps
        ((authorizedGet "Authorization=Basic eQ==").run .handing false 0)) <+: secretiveReplies ∧
      replies .token ((secretiveWorld "old" "hidden" "new").steps
        ((authorizedGet "Authorization=Basic eQ==").run .handing false 0)) <+:
          [.answered (grantOf "new")] := by
    decide +kernel
  exact ⟨run.1, secrecy false 0 (Or.inl rfl) authorizedGet_alike profiles rfl .nil
    (.following secretiveReplies (.cons grants .nil) ⟨run.2.1, run.2.2⟩ ⟨otherRun.1, otherRun.2⟩)⟩

end PlatformClient
