import PlatformClient.Proofs.PercentEscapes
import PlatformClient.Proofs.RetriedRequests

namespace PlatformClient

namespace Http

/-- A text without controls, tabs aside. These are the texts that a header can carry, and
whether it can is seen from the characters. -/
def IsHeaderText (text : String) : Prop :=
  ∀ c ∈ text.toList, c = '\t' ∨ 0x20 ≤ c.toNat ∧ c.toNat ≠ 0x7F

instance (text : String) : Decidable (IsHeaderText text) :=
  List.decidableBAll (fun c => c = '\t' ∨ 0x20 ≤ c.toNat ∧ c.toNat ≠ 0x7F) text.toList

theorem isHeaderByte_iff {byte : UInt8} :
    isHeaderByte byte = true ↔ byte.toNat = 9 ∨ 0x20 ≤ byte.toNat ∧ byte.toNat ≠ 0x7F := by
  simp [isHeaderByte, UInt8.le_iff_toNat_le, ← UInt8.toNat_inj, or_comm]

/-- The bytes of a character may stand in a header exactly if the character may. -/
theorem isHeaderByte_utf8EncodeChar (c : Char) :
    (∀ byte ∈ String.utf8EncodeChar c, isHeaderByte byte = true) ↔
      c = '\t' ∨ 0x20 ≤ c.toNat ∧ c.toNat ≠ 0x7F := by
  rcases Url.Percent.utf8EncodeChar_cases c with
    ⟨ascii, encoded⟩ | ⟨beyond, byte, rest, encoded, all⟩
  · have small : (UInt8.ofNat c.toNat).toNat = c.toNat :=
      UInt8.toNat_ofNat_of_lt' (Nat.lt_trans ascii (by decide))
    have tab : c = '\t' ↔ c.toNat = 9 := Char.toNat_inj.symm
    rw [encoded, List.forall_mem_singleton, isHeaderByte_iff, small, tab]
  · rw [encoded]
    refine iff_of_true (fun other inside => ?_) (Or.inr (by omega))
    have large := all other inside
    exact isHeaderByte_iff.mpr (Or.inr (by omega))

/-- A text can be the value of a header exactly if there is no control in it. -/
theorem headerValue?_isSome_iff {text : String} :
    (headerValue? text).isSome = true ↔ IsHeaderText text := by
  have each : (Text.encode text).all isHeaderByte = true ↔ IsHeaderText text := by
    simp only [Text.encode, Text.encodeChars, List.all_eq_true, List.forall_mem_flatMap,
      isHeaderByte_utf8EncodeChar, IsHeaderText]
  rw [headerValue?]
  split_ifs with proper
  · exact iff_of_true rfl (each.mp proper)
  · exact iff_of_false Bool.false_ne_true (mt each.mpr proper)

theorem isHeaderText_append {front back : String} :
    IsHeaderText (front ++ back) ↔ IsHeaderText front ∧ IsHeaderText back := by
  simp only [IsHeaderText, String.toList_append, List.forall_mem_append]

/-- What stands in front of a token does not decide whether it can be sent. The word for the
kind of token is plain text itself. -/
theorem headerValue?_bearer_eq_none_iff {token : String} :
    headerValue? ("Bearer " ++ token) = none ↔ ¬ IsHeaderText token := by
  have front : IsHeaderText "Bearer " := by decide
  rw [← Option.isNone_iff_eq_none, ← Option.not_isSome, Bool.not_eq_true', ← Bool.not_eq_true,
    headerValue?_isSome_iff, isHeaderText_append, and_iff_right front]

end Http

namespace CallContext

variable {context : CallContext} {method : Http.Method} {path target : String}
  {body : Option CallBody} {headers : CallerHeaders}

/-- Stating the identity is no matter of the token. -/
theorem identified_ne_token {lower : Http.Headers} {other : String} :
    (if context.authMethod = .local then
        match context.identity.addTo lower with
        | (result, true) => return result
        | (_, false) => throw (.construction target .identity)
      else return lower : Except CallError Http.Headers) ≠ .error (.construction other .token) := by
  split
  · split <;> exact nofun
  · exact nofun

/-- The token is at fault where it is to be sent and cannot be. -/
theorem addSender_token_iff {lower : Http.Headers} {other : String} :
    context.addSender target headers lower = .error (.construction other .token) ↔
      other = target ∧ headers.asksFor "authorization" = false ∧
        ¬ Http.IsHeaderText context.token := by
  rw [← Http.headerValue?_bearer_eq_none_iff, addSender]
  simp only [pure_bind]
  cases headers.asksFor "authorization" with
  | true => exact iff_of_false identified_ne_token nofun
  | false =>
    cases Http.headerValue? ("Bearer " ++ context.token) with
    | some value => exact iff_of_false identified_ne_token nofun
    | none =>
      constructor
      · intro refused
        cases refused
        exact ⟨rfl, rfl, rfl⟩
      · rintro ⟨rfl, -, -⟩
        rfl

theorem encodeBody_ne_token : encodeBody headers body ≠ .error (.construction target .token) := by
  intro refused
  unfold encodeBody at refused
  split at refused <;> try split at refused
  all_goals cases refused

theorem callUrl_ne_token : context.callUrl path ≠ .error (.construction target .token) := by
  intro refused
  unfold callUrl at refused
  split at refused <;> cases refused

theorem foldlM_addCallerHeader_ne_token {lower : Http.Headers} {other : String} :
    headers.foldlM (addCallerHeader target) lower ≠ .error (.construction other .token) := by
  intro refused
  rw [foldlM_addCallerHeader] at refused
  split at refused
  · rename_i fault rest faults
    obtain ⟨header, -, faulty⟩ := List.mem_filterMap.mp (faults ▸ List.mem_cons_self)
    cases refused
    unfold CallerHeaders.fault? at faulty
    split_ifs at faulty
    split at faulty <;> cases faulty
  · cases refused

/-- A call cannot be made because of the token exactly where nothing else is in the way
before, and the token is to be sent and cannot be. Body and address are looked at before the
sender, and the headers of the caller behind it. -/
theorem request_token_iff :
    context.request method path body headers = .error (.construction target .token) ↔
      ∃ content url, encodeBody headers body = .ok content ∧ context.callUrl path = .ok url ∧
        target = url.print ∧ headers.asksFor "authorization" = false ∧
        ¬ Http.IsHeaderText context.token := by
  constructor
  · intro refused
    rcases bind_eq_error_iff.mp refused with failed | ⟨content, encoded, refused⟩
    · exact absurd failed encodeBody_ne_token
    rcases bind_eq_error_iff.mp refused with failed | ⟨url, address, refused⟩
    · exact absurd failed callUrl_ne_token
    rcases bind_eq_error_iff.mp refused with failed | ⟨lower, -, refused⟩
    · exact ⟨content, url, encoded, address, addSender_token_iff.mp failed⟩
    rcases bind_eq_error_iff.mp refused with failed | ⟨upper, -, made⟩
    · exact absurd failed foldlM_addCallerHeader_ne_token
    · cases made
  · rintro ⟨content, url, encoded, address, sender⟩
    refine bind_eq_error_iff.mpr (Or.inr ⟨content, encoded, ?_⟩)
    refine bind_eq_error_iff.mpr (Or.inr ⟨url, address, ?_⟩)
    exact bind_eq_error_iff.mpr (Or.inl (addSender_token_iff.mpr sender))

end CallContext

namespace Profile

variable {profile : Profile} {call : Call} {options : CallOptions} {token : String}

/-- A call cannot be made of a profile because of the token exactly where nothing else is in the way
before, and the token is to be sent and cannot be. -/
theorem requestOf_token_iff {target : String} :
    profile.requestOf call options = .error (.construction target .token) ↔
      ∃ base content url, profile.baseUrl = .ok base ∧
        CallContext.encodeBody options.headers call.body = .ok content ∧
        base.join? call.path = some url ∧ target = url.print ∧
        options.headers.asksFor "authorization" = false ∧ ¬ Http.IsHeaderText profile.token := by
  rw [requestOf_eq_error_iff]
  constructor
  · rintro (⟨why, -, other⟩ | ⟨base, known, failed⟩)
    · cases other
    · obtain ⟨content, url, encoded, address, faulty⟩ := CallContext.request_token_iff.mp failed
      exact ⟨base, content, url, known, encoded, CallContext.callUrl_eq_ok_iff.mp address, faulty⟩
  · rintro ⟨base, content, url, known, encoded, joined, faulty⟩
    exact Or.inr ⟨base, known, CallContext.request_token_iff.mpr
      ⟨content, url, encoded, CallContext.callUrl_eq_ok_iff.mpr joined, faulty⟩⟩

/-- A token without controls never keeps a call from being made, whatever the call is. -/
theorem requestOf_ne_token (usable : Http.IsHeaderText profile.token) (target : String) :
    profile.requestOf call options ≠ .error (.construction target .token) := by
  intro refused
  obtain ⟨_, _, _, -, -, -, -, -, unusable⟩ := requestOf_token_iff.mp refused
  exact unusable usable

/-- Whatever could be made of a call with another token fails because of a token with a
control. All that comes before the token is the same, and so there is nothing else that
could fail earlier. -/
theorem requestOf_token {request : Http.Request} (unusable : ¬ Http.IsHeaderText profile.token)
    (silent : options.headers.asksFor "authorization" = false)
    (made : { profile with token }.requestOf call options = .ok request) :
    profile.requestOf call options = .error (.construction request.url.print .token) := by
  obtain ⟨context, found, made⟩ := requestOf_eq_ok_iff.mp made
  obtain ⟨base, known, rfl⟩ := context_eq_ok_iff.mp found
  obtain ⟨content, url, _, _, encoded, address, -, -, rfl⟩ := CallContext.request_eq_ok_iff.mp made
  exact requestOf_token_iff.mpr ⟨base, content, url, known, encoded,
    CallContext.callUrl_eq_ok_iff.mp address, rfl, silent, unusable⟩

/-- Nothing is made of a call with a token that has a control. -/
theorem requestOf_unusable (unusable : ¬ Http.IsHeaderText profile.token)
    (silent : options.headers.asksFor "authorization" = false) :
    ∃ error, profile.requestOf call options = .error error ∧ error.Unmade := by
  cases built : profile.requestOf call options with
  | error error => exact ⟨error, rfl, requestOf_unmade built⟩
  | ok request =>
    have refused := requestOf_token unusable silent built
    cases built.symm.trans refused

end Profile

namespace Call

variable {world : World} {client : Client} {call : Call} {options : CallOptions}

/-- The calls that one makes one after the other, and what has come of each. -/
def makeCalls (client : Client) :
    List (Call × CallOptions) → Program (List (Except CallError Payload))
  | [] => return []
  | (call, options) :: rest => do
    let (_, result) ← execute client call options
    let results ← makeCalls client rest
    return result :: results

theorem run_makeCalls_cons (world : World) (client : Client) (call : Call) (options : CallOptions)
    (rest : List (Call × CallOptions)) :
    world.run (makeCalls client ((call, options) :: rest)) =
      (((world.run (execute client call options)).1.2 ::
          ((world.run (execute client call options)).2.run (makeCalls client rest)).1),
        ((world.run (execute client call options)).2.run (makeCalls client rest)).2) := by
  rw [makeCalls, World.run_bind, World.run_bind]
  rfl

theorem steps_makeCalls_cons (world : World) (client : Client) (call : Call) (options : CallOptions)
    (rest : List (Call × CallOptions)) :
    world.steps (makeCalls client ((call, options) :: rest)) =
      world.steps (execute client call options) ++
        (world.run (execute client call options)).2.steps (makeCalls client rest) := by
  have silent (behind : World) (results : List (Except CallError Payload)) :
      behind.steps (pure results) = [] := rfl
  rw [makeCalls, World.steps_bind, World.steps_bind, silent, List.append_nil]

/-- A token that cannot be sent stays: as long as no call states an authorization of its
own, none comes to a request or to a login. By induction over the calls, each of which finds
the profile as the one before did. A login would begin only where there is no token, or
behind a refusal, and for that a request would have to be sent. -/
theorem makeCalls_unusable (token : world.profile.hasToken = true)
    (unusable : ¬ Http.IsHeaderText world.profile.token) {calls : List (Call × CallOptions)}
    (silent : ∀ call ∈ calls, call.2.headers.asksFor "authorization" = false) :
    (∀ result ∈ (world.run (makeCalls client calls)).1,
        ∃ error, result = .error error ∧ error.Unmade) ∧
      (world.run (makeCalls client calls)).2.profile = world.profile ∧
      proceedings (world.steps (makeCalls client calls)) = [] := by
  induction calls generalizing world with
  | nil => exact ⟨List.forall_mem_nil _, rfl, rfl⟩
  | cons next rest ih =>
    obtain ⟨call, options⟩ := next
    obtain ⟨here, further⟩ := List.forall_mem_cons.mp silent
    obtain ⟨error, refused, unmade⟩ : ∃ error, world.profile.requestOf call options = .error error ∧
        error.Unmade := Profile.requestOf_unusable unusable here
    obtain ⟨quiet, message, ended⟩ : _ ∧ ∃ message, world.run (execute client call options) =
        ((options, .error error), world.record (.log .info message)) :=
      execute_unmade token refused
    have later := @ih (world.record (.log .info message)) token unusable further
    rw [run_makeCalls_cons, steps_makeCalls_cons, proceedings_append, quiet, List.nil_append, ended]
    exact ⟨List.forall_mem_cons.mpr ⟨⟨error, rfl, unmade⟩, later.1⟩, later.2⟩

/-- A profile with a token that keeps all calls from being made which do not state an
authorization of their own. It stays as it is under any number of such calls, so that
nothing but a login from outside helps. -/
structure Stuck (client : Client) (profile : Profile) : Prop where
  /-- What is wrong with a call is nothing but the token. -/
  because : ∀ call options token request, options.headers.asksFor "authorization" = false →
    Profile.requestOf { profile with token } call options = .ok request →
      profile.requestOf call options = .error (.construction request.url.print .token)
  unmade : ∀ world : World, world.profile = profile → ∀ calls : List (Call × CallOptions),
    (∀ call ∈ calls, call.2.headers.asksFor "authorization" = false) →
      ∀ result ∈ (world.run (makeCalls client calls)).1,
        ∃ error, result = .error error ∧ error.Unmade
  /-- Nothing is sent, nobody logs in, and the token stays. -/
  stays : ∀ world : World, world.profile = profile → ∀ calls : List (Call × CallOptions),
    (∀ call ∈ calls, call.2.headers.asksFor "authorization" = false) →
      proceedings (world.steps (makeCalls client calls)) = [] ∧
        (world.run (makeCalls client calls)).2.profile = profile

theorem stuck_of_unusable {profile : Profile} (token : profile.hasToken = true)
    (unusable : ¬ Http.IsHeaderText profile.token) : Stuck client profile where
  because _ _ _ _ silent made := Profile.requestOf_token unusable silent made
  unmade world same calls silent := by
    subst same
    exact (makeCalls_unusable token unusable silent).1
  stays world same calls silent := by
    subst same
    obtain ⟨-, kept, quiet⟩ := makeCalls_unusable token unusable silent
    exact ⟨quiet, kept⟩

/-- What a service is given for a token is kept, whatever it is. A token without controls
never keeps a call from being made. With any other, the profile is stuck. The login looks at
nothing of the token but whether it is empty. -/
theorem granted_token (login : client.login = .profile)
    (service : world.profile.authMethod = .servicePrincipal)
    (success : (world.run (client.login.run client.userAgent).run).1 = .ok ()) :
    ∃ request reply token,
      ⟨.send .token request, reply⟩ ∈ world.steps (client.login.run client.userAgent).run ∧
      Login.tokenOfReply request.url reply = .ok token ∧ token ≠ "" ∧
      (world.run (client.login.run client.userAgent).run).2.profile =
        { world.profile with token } ∧
      (Http.IsHeaderText token → ∀ call options target,
        Profile.requestOf { world.profile with token } call options ≠
          .error (.construction target .token)) ∧
      (¬ Http.IsHeaderText token → Stuck client { world.profile with token }) := by
  have course := LoginCourse.of_runs (world.runs_steps (client.login.run client.userAgent).run)
  rw [success] at course
  rcases course.renewal login (world.allows_steps _) with
    ⟨-, machine, -⟩ | ⟨token, -, stored, request, reply, sent, given⟩
  · cases service.symm.trans machine
  · have filled := Login.tokenOfReply_isEmpty given
    rw [World.after_steps] at stored
    refine ⟨request, reply, token, sent, given, ?_, stored, ?_, ?_⟩
    · rintro rfl
      cases filled
    · exact fun usable call options target => Profile.requestOf_ne_token usable target
    · have present : Profile.hasToken { world.profile with token } = true := congrArg not filled
      exact stuck_of_unusable present

/-- A service in front of a platform that gives out a token, which is written as it stands in the
answer. -/
def grantingWorld (written : String) : World where
  profile :=
    { url := "http://platform.test", authMethod := .servicePrincipal, tenantId := "t",
      clientId := "c", clientSecret := "s" }
  files := Files.emptyAt ["work"]
  remote := .script [.answer (.response Http.ok []
    (Text.encode ("\x7b\"access_token\":\"" ++ written ++ "\"\x7d")))]

def plainClient : Client where
  userAgent := none

def plainCall : Call := ⟨.get, "/x", none⟩

/-- The end of its login. -/
def granted (written : String) : Except (Halt LoginError) Unit × World :=
  (grantingWorld written).run (plainClient.login.run plainClient.userAgent).run

theorem granted_token_plain :
    (granted "fresh").1 = .ok () ∧
      ∀ call options target, (granted "fresh").2.profile.requestOf call options ≠
        .error (.construction target .token) := by
  have success : (granted "fresh").1 = .ok () := by decide +kernel
  have fresh : (granted "fresh").2.profile.token = "fresh" := by decide +kernel
  obtain ⟨request, reply, token, -, -, -, stored, usable, -⟩ :=
    @granted_token (grantingWorld "fresh") plainClient rfl rfl success
  rw [← granted] at stored
  have plain : Http.IsHeaderText token := by
    rw [stored] at fresh
    have same : token = "fresh" := fresh
    rw [same]
    decide
  refine ⟨success, fun call options target => ?_⟩
  rw [stored]
  exact usable plain call options target

/-- A line end in the token is kept, and then in the way. -/
theorem granted_token_line_end :
    (granted "a\\nb").1 = .ok () ∧
      (granted "a\\nb").2.profile = { (grantingWorld "a\\nb").profile with token := "a\nb" } ∧
      (granted "a\\nb").2.profile.requestOf plainCall {} =
        .error (.construction "http://platform.test/x" .token) := by
  have stored : (granted "a\\nb").2.profile =
      { (grantingWorld "a\\nb").profile with token := "a\nb" } := by
    decide +kernel
  refine ⟨by decide +kernel, stored, ?_⟩
  rw [stored, Profile.requestOf_token_iff]
  let authority : Url.Authority := ⟨"", none, .domain "platform.test", none⟩
  let base : Url := ⟨"http", some authority, .segments [""], none, none⟩
  have known : (grantingWorld "a\\nb").profile.baseUrl = .ok base := by decide +kernel
  have joined : base.join? "/x" = some { base with path := .segments ["x"] } := by decide +kernel
  exact ⟨base, none, _, known, rfl, joined, by decide +kernel, rfl, by decide⟩

end Call

end PlatformClient
