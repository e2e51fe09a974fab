import PlatformClient.Login.Grant
import PlatformClient.Proofs.AlikeCalls
import PlatformClient.Proofs.Surroundings

namespace PlatformClient

/-- Replies to requests for a token that differ at most in the token that is given. -/
inductive AlikeGrants : Http.Reply → Http.Reply → Prop
  | same (reply : Http.Reply) : AlikeGrants reply reply
  | granted {response other : Http.Response} {token otherToken : String}
      (success : response.status.isSuccess = true) (otherSuccess : other.status.isSuccess = true)
      (grant : Login.readGrant response.body = .ok token)
      (otherGrant : Login.readGrant other.body = .ok otherToken)
      (alike : AlikeSecrets token otherToken) : AlikeGrants (.answered response) (.answered other)

/-- Logins elsewhere that differ at most in the token that is given. -/
inductive LoginStep.Alike : LoginStep → LoginStep → Prop
  | same (step : LoginStep) : Alike step step
  | token {text otherText : String} (alike : AlikeSecrets text otherText) :
      Alike (.token text) (.token otherText)

/-- Other sides of the connection that differ at most in the tokens that they give. -/
inductive Remote.Alike : Remote → Remote → Prop
  | same (remote : Remote) : Alike remote remote
  | arranged (calls : List Http.Reply) {tokens others : List Http.Reply}
      (alike : List.Forall₂ AlikeGrants tokens others) :
      Alike (.arranged calls tokens) (.arranged calls others)

/-- Surroundings that differ in secrets at most. What has been seen of a program before may
differ too. -/
structure World.Alike (world other : World) : Prop where
  profile : world.profile.Alike other.profile
  files : world.files = other.files
  remote : world.remote.Alike other.remote
  logins : List.Forall₂ LoginStep.Alike world.logins other.logins

/-- Steps that differ in the secrets that they hand over at most. -/
inductive Effect.Alike : Effect → Effect → Prop
  | same (effect : Effect) : Alike effect effect
  | storeToken {token otherToken : String} (alike : AlikeSecrets token otherToken) :
      Alike (.storeToken token) (.storeToken otherToken)
  | send (purpose : Purpose) {request other : Http.Request} (alike : request.Alike other) :
      Alike (.send purpose request) (.send purpose other)

/-- Steps with their outcomes that differ in secrets at most: in the token and the
client secret of the profile, in the tokens that are given and stored, and in the
values of authorizations that are sent. -/
inductive Step.Alike : Step → Step → Prop
  | readProfile {profile other : Profile} (alike : profile.Alike other) :
      Alike ⟨.readProfile, profile⟩ ⟨.readProfile, other⟩
  | storeToken {token otherToken : String} (alike : AlikeSecrets token otherToken) :
      Alike ⟨.storeToken token, ()⟩ ⟨.storeToken otherToken, ()⟩
  | call {request other : Http.Request} (alike : request.Alike other) (reply : Http.Reply) :
      Alike ⟨.send .call request, reply⟩ ⟨.send .call other, reply⟩
  | token {request other : Http.Request} {reply otherReply : Http.Reply}
      (alike : request.Alike other) (grants : AlikeGrants reply otherReply) :
      Alike ⟨.send .token request, reply⟩ ⟨.send .token other, otherReply⟩
  | askForToken {given otherGiven : Except (Halt LoginError) String}
      (alike : AlikeResults AlikeSecrets given otherGiven) :
      Alike ⟨.askForToken, given⟩ ⟨.askForToken, otherGiven⟩
  | readFile (path : String) (given : Except Files.Fault Bytes) :
      Alike ⟨.readFile path, given⟩ ⟨.readFile path, given⟩
  | writeFile (path : String) (content : Bytes) (given : Except Files.Fault Unit) :
      Alike ⟨.writeFile path content, given⟩ ⟨.writeFile path content, given⟩
  | record (event : Event) : Alike (Step.recorded event) (Step.recorded event)

namespace Program

variable {α β γ δ : Type}

/-- Programs that take alike steps as long as these give alike outcomes, and come
to related values. -/
inductive Alike (related : α → β → Prop) : Program α → Program β → Prop
  | done {value : α} {other : β} (alike : related value other) :
      Alike related (.done value) (.done other)
  | perform {effect other : Effect} {next : effect.Outcome → Program α}
      {otherNext : other.Outcome → Program β} (effects : effect.Alike other)
      (rest : ∀ outcome otherOutcome, Step.Alike ⟨effect, outcome⟩ ⟨other, otherOutcome⟩ →
        Alike related (next outcome) (otherNext otherOutcome)) :
      Alike related (.perform effect next) (.perform other otherNext)

variable {related : α → β → Prop} {further : γ → δ → Prop} {program : Program α}
  {other : Program β}

theorem Alike.bind {next : α → Program γ} {otherNext : β → Program δ}
    (first : Alike related program other)
    (later : ∀ value otherValue, related value otherValue →
      Alike further (next value) (otherNext otherValue)) :
    Alike further (program >>= next) (other >>= otherNext) := by
  induction first with
  | done alike => exact later _ _ alike
  | perform effects _ ih => exact .perform effects ih

theorem alike_record (event : Event) : Alike (· = ·) (record event) (record event) :=
  .perform (.same _) fun _ _ _ => .done rfl

theorem alike_readProfile : Alike Profile.Alike readProfile readProfile :=
  .perform (.same _) fun _ _ steps => .done (by cases steps with | readProfile alike => exact alike)

theorem alike_storeToken {token otherToken : String} (alike : AlikeSecrets token otherToken) :
    Alike (· = ·) (storeToken token) (storeToken otherToken) :=
  .perform (.storeToken alike) fun _ _ _ => .done rfl

theorem alike_call {request otherRequest : Http.Request} (alike : request.Alike otherRequest) :
    Alike (· = ·) (send .call request) (send .call otherRequest) :=
  .perform (.send .call alike) fun _ _ steps => .done (by cases steps; rfl)

theorem alike_tokenRequest {request otherRequest : Http.Request}
    (alike : request.Alike otherRequest) :
    Alike AlikeGrants (send .token request) (send .token otherRequest) :=
  .perform (.send .token alike) fun _ _ steps => .done (by cases steps; assumption)

theorem alike_askForToken : Alike (AlikeResults AlikeSecrets) askForToken askForToken :=
  .perform (.same _) fun _ _ steps => .done (by cases steps; assumption)

theorem alike_readFile (path : String) : Alike (· = ·) (readFile path) (readFile path) :=
  .perform (.same _) fun _ _ steps => .done (by cases steps; rfl)

theorem alike_writeFile (path : String) (content : Bytes) :
    Alike (· = ·) (writeFile path content) (writeFile path content) :=
  .perform (.same _) fun _ _ steps => .done (by cases steps; rfl)

end Program

namespace Attempt

variable {ε ε' α β γ δ : Type} {related : α → β → Prop} {further : γ → δ → Prop}

theorem alike_result {result : Except ε α} {other : Except ε β}
    (alike : AlikeResults related result other) :
    Program.Alike (AlikeResults related) (ExceptT.mk (pure result) : Attempt ε α).run
      (ExceptT.mk (pure other) : Attempt ε β).run := .done alike

theorem alike_lift {program : Program α} {other : Program β}
    (alike : Program.Alike related program other) :
    Program.Alike (AlikeResults related) (liftM program : Attempt ε α).run
      (liftM other : Attempt ε β).run :=
  alike.bind fun _ _ values => .done (.ok values)

theorem alike_bind {attempt : Attempt ε α} {other : Attempt ε β} {next : α → Attempt ε γ}
    {otherNext : β → Attempt ε δ}
    (first : Program.Alike (AlikeResults related) attempt.run other.run)
    (later : ∀ value otherValue, related value otherValue →
      Program.Alike (AlikeResults further) (next value).run (otherNext otherValue).run) :
    Program.Alike (AlikeResults further) (attempt >>= next).run (other >>= otherNext).run := by
  rw [ExceptT.run_bind, ExceptT.run_bind]
  refine first.bind fun result otherResult results => ?_
  cases results with
  | error error => exact .done (.error error)
  | ok alike => exact later _ _ alike

theorem alike_adapt {attempt : Attempt ε α} {other : Attempt ε β} (translate : ε → ε')
    (alike : Program.Alike (AlikeResults related) attempt.run other.run) :
    Program.Alike (AlikeResults related) (attempt.adapt translate).run
      (other.adapt translate).run := by
  change Program.Alike _ (Except.mapError translate <$> attempt.run)
    (Except.mapError translate <$> other.run)
  rw [map_eq_pure_bind, map_eq_pure_bind]
  exact alike.bind fun _ _ results => .done (results.mapError translate)

end Attempt

namespace World

variable {world other : World}

theorem deliver_alike {request otherRequest : Http.Request} (script : List RemoteStep)
    (worlds : world.Alike other) (requests : request.Alike otherRequest) :
    (world.deliver request script).1 = (other.deliver otherRequest script).1 ∧
      (world.deliver request script).2.Alike (other.deliver otherRequest script).2 := by
  cases script with
  | nil => exact ⟨rfl, worlds.profile, worlds.files, worlds.remote, worlds.logins⟩
  | cons step rest =>
    cases step with
    | answer answer =>
      exact ⟨congrArg answer.reply requests.method, worlds.profile, worlds.files, .same _,
        worlds.logins⟩
    | signal => exact ⟨rfl, worlds.profile, worlds.files, .same _, worlds.logins⟩

theorem arrangedReply_alike (calls : List Http.Reply) {tokens others : List Http.Reply}
    (purpose : Purpose) (worlds : world.Alike other)
    (grants : List.Forall₂ AlikeGrants tokens others) :
    AlikeGrants (world.arrangedReply calls tokens purpose).1
        (other.arrangedReply calls others purpose).1 ∧
      (purpose = .call → (world.arrangedReply calls tokens purpose).1 =
        (other.arrangedReply calls others purpose).1) ∧
      (world.arrangedReply calls tokens purpose).2.Alike
        (other.arrangedReply calls others purpose).2 := by
  cases purpose with
  | call =>
    exact ⟨.same _, fun _ => rfl, worlds.profile, worlds.files, .arranged _ grants, worlds.logins⟩
  | token =>
    cases grants with
    | nil => exact ⟨.same _, nofun, worlds.profile, worlds.files, .arranged _ .nil, worlds.logins⟩
    | cons first rest =>
      exact ⟨first, nofun, worlds.profile, worlds.files, .arranged _ rest, worlds.logins⟩

/-- Alike requests have alike replies in alike surroundings. Those of calls are the same:
they come from a script, which does not look at the secret that a call carries. -/
theorem send_alike (purpose : Purpose) {request otherRequest : Http.Request}
    (worlds : world.Alike other) (requests : request.Alike otherRequest) :
    AlikeGrants (world.send purpose request).1 (other.send purpose otherRequest).1 ∧
      (purpose = .call →
        (world.send purpose request).1 = (other.send purpose otherRequest).1) ∧
      (world.send purpose request).2.Alike (other.send purpose otherRequest).2 := by
  have remotes := worlds.remote
  unfold send
  rw [← requests.url]
  generalize world.remote = remote, other.remote = otherRemote at remotes ⊢
  cases remotes with
  | arranged calls grants => exact arrangedReply_alike calls purpose worlds grants
  | same =>
    cases remote with
    | unconnected => exact ⟨.same _, fun _ => rfl, worlds⟩
    | arranged calls tokens =>
      exact arrangedReply_alike calls purpose worlds
        (List.forall₂_same.mpr fun reply _ => .same reply)
    | script steps =>
      obtain ⟨replies, later⟩ := deliver_alike steps worlds requests
      simp only []
      split
      · exact ⟨.same _, fun _ => rfl, worlds⟩
      · split
        · exact ⟨.same _, fun _ => rfl, worlds⟩
        · exact ⟨replies ▸ .same _, fun _ => replies, later⟩

theorem takeLogin_alike (worlds : world.Alike other) :
    AlikeResults AlikeSecrets world.takeLogin.1 other.takeLogin.1 ∧
      world.takeLogin.2.Alike other.takeLogin.2 := by
  have logins := worlds.logins
  unfold takeLogin
  generalize world.logins = steps, other.logins = others at logins ⊢
  cases logins with
  | nil => exact ⟨.error _, worlds⟩
  | @cons step otherStep rest others first later =>
    cases first with
    | token alike => exact ⟨.ok alike, worlds.profile, worlds.files, worlds.remote, later⟩
    | same =>
      cases step with
      | token text => exact ⟨.ok (.refl _), worlds.profile, worlds.files, worlds.remote, later⟩
      | failure error => exact ⟨.error _, worlds.profile, worlds.files, worlds.remote, later⟩
      | silence ending => exact ⟨.error _, worlds.profile, worlds.files, worlds.remote, later⟩

/-- One step of alike programs in alike surroundings is alike, and leaves alike surroundings
behind. This is the invariant of a whole run. -/
theorem answer_alike {effect otherEffect : Effect} (worlds : world.Alike other)
    (effects : effect.Alike otherEffect) :
    Step.Alike ⟨effect, (world.answer effect).1⟩ ⟨otherEffect, (other.answer otherEffect).1⟩ ∧
      (world.answer effect).2.Alike (other.answer otherEffect).2 := by
  have sent : ∀ purpose {request otherRequest : Http.Request}, request.Alike otherRequest →
      Step.Alike ⟨.send purpose request, (world.answer (.send purpose request)).1⟩
        ⟨.send purpose otherRequest, (other.answer (.send purpose otherRequest)).1⟩ ∧
      (world.answer (.send purpose request)).2.Alike
        (other.answer (.send purpose otherRequest)).2 := by
    intro purpose request otherRequest requests
    obtain ⟨grants, replies, later⟩ := send_alike purpose worlds requests
    refine ⟨?_, later.profile, later.files, later.remote, later.logins⟩
    cases purpose with
    | token => exact .token requests grants
    | call =>
      have same : (world.answer (.send .call request)).1 =
        (other.answer (.send .call otherRequest)).1 := replies rfl
      rw [same]
      exact .call requests _
  cases effects with
  | storeToken alike =>
    exact ⟨.storeToken alike, worlds.profile.storeToken alike, worlds.files, worlds.remote,
      worlds.logins⟩
  | send purpose requests => exact sent purpose requests
  | same =>
    cases effect with
    | readProfile => exact ⟨.readProfile worlds.profile, worlds⟩
    | storeToken token =>
      exact ⟨.storeToken (.refl token), worlds.profile.storeToken (.refl token), worlds.files,
        worlds.remote, worlds.logins⟩
    | send purpose request => exact sent purpose ⟨rfl, rfl, .refl _, rfl⟩
    | askForToken =>
      obtain ⟨given, later⟩ := takeLogin_alike worlds
      exact ⟨.askForToken given, later⟩
    | readFile path =>
      refine ⟨?_, worlds⟩
      have same : (world.answer (.readFile path)).1 = (other.answer (.readFile path)).1 :=
        congrArg (·.read path) worlds.files
      rw [same]
      exact .readFile path _
    | writeFile path content =>
      rw [answer_writeFile, answer_writeFile, worlds.files]
      cases other.files.write path content with
      | error fault => exact ⟨.writeFile path content _, worlds⟩
      | ok files =>
        exact ⟨.writeFile path content _, worlds.profile, rfl, worlds.remote, worlds.logins⟩
    | record event =>
      exact ⟨.record event, worlds.profile, worlds.files, worlds.remote, worlds.logins⟩

/-- Alike programs in alike surroundings come to related values by alike steps. By induction
over the two programs, which take their steps together: each is answered alike, and alike
answers lead to alike programs. -/
theorem run_alike {α β : Type} {related : α → β → Prop} {program : Program α}
    {otherProgram : Program β} (programs : Program.Alike related program otherProgram)
    (worlds : world.Alike other) :
    related (world.run program).1 (other.run otherProgram).1 ∧
      List.Forall₂ Step.Alike (world.steps program) (other.steps otherProgram) ∧
      (world.run program).2.Alike (other.run otherProgram).2 := by
  -- Both programs go on in step, and the surroundings stay alike behind each step.
  induction programs generalizing world other with
  | done alike => exact ⟨alike, .nil, worlds⟩
  | perform effects _ ih =>
    obtain ⟨step, later⟩ := answer_alike worlds effects
    obtain ⟨values, steps, final⟩ := ih _ _ step later
    exact ⟨values, .cons step steps, final⟩

end World

end PlatformClient
