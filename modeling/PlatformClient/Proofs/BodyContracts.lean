import PlatformClient.Proofs.CallEndings
import PlatformClient.Proofs.RequestCommand
import PlatformClient.Proofs.WatchedCalls

namespace PlatformClient

namespace CallerHeaders

variable {headers : CallerHeaders} {name other : String}

/-- Setting a header replaces what was written under exactly its name. -/
theorem any_set (headers : CallerHeaders) (name value : String) (holds : String × String → Bool) :
    (headers.set name value).any holds =
      (holds (name, value) || headers.any fun header => header.1 != name && holds header) := by
  rw [Bool.eq_iff_iff, set]
  split_ifs with known
  · simp only [List.any_map, List.any_eq_true, Function.comp_apply, Bool.or_eq_true,
      Bool.and_eq_true, bne_iff_ne]
    constructor
    · rintro ⟨header, member, given⟩
      by_cases same : header.1 = name
      · rw [if_pos same] at given
        exact Or.inl given
      · rw [if_neg same] at given
        exact Or.inr ⟨header, member, same, given⟩
    · rintro (given | ⟨header, member, apart, given⟩)
      · obtain ⟨header, member, same⟩ := List.any_eq_true.mp known
        exact ⟨header, member, by rwa [if_pos (beq_iff_eq.mp same)]⟩
      · exact ⟨header, member, by rwa [if_neg apart]⟩
  · have apart : ∀ header ∈ headers, header.1 ≠ name := fun header member same =>
      known (List.any_eq_true.mpr ⟨header, member, beq_iff_eq.mpr same⟩)
    simp only [List.any_append, List.any_cons, List.any_nil, Bool.or_false, Bool.or_eq_true,
      List.any_eq_true, Bool.and_eq_true, bne_iff_ne]
    rw [or_comm]
    exact or_congr_right (exists_congr fun header =>
      and_congr_right fun member => (and_iff_right (apart header member)).symm)

theorem any_set_of_apart {holds : String × String → Bool}
    (apart : ∀ value, holds (name, value) = false) (value : String) :
    (headers.set name value).any holds = headers.any holds := by
  rw [any_set, apart, Bool.false_or]
  congr 1
  funext header
  by_cases same : header.1 = name
  · rw [show header = (name, header.2) from Prod.ext same rfl, apart, Bool.and_false]
  · rw [bne_iff_ne.mpr same, Bool.true_and]

/-- Whether a value that is not empty is asked for under a name in another spelling. -/
def asksApart (headers : CallerHeaders) (name : String) : Bool :=
  headers.any fun (other, value) => other != name && (sameName other name && !value.isEmpty)

theorem asksFor_set_self (headers : CallerHeaders) (name value : String) :
    (headers.set name value).asksFor name = (!value.isEmpty || headers.asksApart name) := by
  have self : sameName name name = true := sameName_iff.mpr rfl
  rw [asksFor, any_set]
  dsimp only
  rw [self, Bool.true_and]
  rfl

theorem asksFor_set_of_apart (apart : sameName name other = false) (value : String) :
    (headers.set name value).asksFor other = headers.asksFor other :=
  any_set_of_apart (fun _ => by simp [apart]) value

theorem asksApart_set_of_apart (apart : sameName name other = false) (value : String) :
    (headers.set name value).asksApart other = headers.asksApart other :=
  any_set_of_apart (fun _ => by simp [apart]) value

end CallerHeaders

namespace CallContext

variable {context : CallContext} {method : Http.Method} {path : String} {body : Option CallBody}
  {headers : CallerHeaders} {what : Misuse}

/-- How a body and the headers that come with it break what is agreed on between them. A
document brings its own type, and bytes have none unless it is stated. -/
def bodyMisuse? (headers : CallerHeaders) : Option CallBody → Option Misuse
  | none => none
  | some (.document _) =>
    if headers.asksFor "content-type" then some .documentWithContentType else none
  | some (.bytes _) =>
    if headers.asksFor "content-type" then none else some .bytesWithoutContentType

theorem encodeBody_misuse_iff :
    encodeBody headers body = .error (.misuse what) ↔ bodyMisuse? headers body = some what := by
  rcases body with _ | value | content
  · exact ⟨nofun, nofun⟩
  · rw [encodeBody, bodyMisuse?]
    split_ifs <;> simp
  · rw [encodeBody, bodyMisuse?]
    split_ifs <;> simp

/-- No request can be made where what is agreed on is broken, and for no other reason is a
request taken for a misuse. It is the first thing that is looked at when a request is made. -/
theorem request_misuse_iff : context.request method path body headers = .error (.misuse what) ↔
    bodyMisuse? headers body = some what := by
  rw [← encodeBody_misuse_iff]
  constructor
  · intro refused
    rcases request_error refused with failed | ⟨target, fault, other⟩
    · exact failed
    · cases other
  · exact fun failed => bind_eq_error_iff.mpr (Or.inl failed)

end CallContext

theorem Profile.requestOf_misuse_iff {profile : Profile} {call : Call} {options : CallOptions}
    {what : Misuse} : profile.requestOf call options = .error (.misuse what) ↔
      (∃ base, profile.baseUrl = .ok base) ∧
        CallContext.bodyMisuse? options.headers call.body = some what := by
  rw [requestOf_eq_error_iff]
  constructor
  · rintro (⟨why, -, other⟩ | ⟨base, known, failed⟩)
    · cases other
    · exact ⟨⟨base, known⟩, CallContext.request_misuse_iff.mp failed⟩
  · rintro ⟨⟨base, known⟩, broken⟩
    exact Or.inr ⟨base, known, CallContext.request_misuse_iff.mpr broken⟩

namespace Call

variable {world : World} {client : Client} {call : Call} {options : CallOptions} {what : Misuse}

/-- What is agreed on of the body is looked at before all else. -/
theorem requestOf_ne_ok (broken : CallContext.bodyMisuse? options.headers call.body = some what)
    (profile : Profile) (request : Http.Request) :
    profile.requestOf call options ≠ .ok request := by
  intro built
  obtain ⟨context, -, made⟩ := Profile.requestOf_eq_ok_iff.mp built
  obtain ⟨content, _, _, _, encoded, -⟩ := CallContext.request_eq_ok_iff.mp made
  cases encoded.symm.trans (CallContext.encodeBody_misuse_iff.mpr broken)

/-- Where no request can be made of a call, none is sent. -/
theorem execute_unsent
    (unmade : ∀ profile request, Profile.requestOf profile call options ≠ .ok request) :
    exchanges (proceedings (world.steps (execute client call options))) = [] := by
  refine List.eq_nil_iff_forall_not_mem.mpr fun exchange sent => ?_
  obtain ⟨profile, made, built, -⟩ := built_of_execute sent
  exact unmade profile made built

/-- A call that fails as a misuse breaks what is agreed on of its body, or it is given a
file for which there is no name. The second comes behind a response, and by it the two can
be told apart. -/
theorem misuse_of_execute
    (failed : (world.run (execute client call options)).1.2 = .error (.misuse what)) :
    CallContext.bodyMisuse? options.headers call.body = some what ∨
      ∃ type, what = .noFileName type := by
  rcases (Course.of_runs (world.runs_steps (execute client call options))).ends with
    ⟨error, same, ends⟩ | ⟨request, response, handling, -, -, -, runs⟩
  · cases failed.symm.trans same
    cases ends with
    | unauthenticated which => rcases which with other | other <;> cases other
    | unbuilt read refused => exact Or.inl (Profile.requestOf_misuse_iff.mp refused).2
    | @unanswered request reply _ broken => cases reply <;> cases broken
    | @answered request response _ decided =>
      unfold verdict at decided
      split at decided <;> cases decided
  · rw [failed] at runs
    rcases Payload.ofResponse_error runs with ⟨type, same⟩ | ⟨path, fault, same⟩
    · cases same
      exact Or.inr ⟨type, rfl⟩
    · cases same

end Call

/-- How the call of a plan breaks what is agreed on of its body. -/
def Plan.misuse? (plan : Plan) : Option Misuse :=
  CallContext.bodyMisuse? plan.options.headers plan.call.body

theorem Presentation.present_misuse_iff {presentation : Presentation}
    {result : Except CallError Payload} {what : Misuse} :
    presentation.present result = .error (.call (.misuse what)) ↔
      result = .error (.misuse what) := by
  cases result with
  | error error =>
    have failed : presentation.present (.error error) = .error (.call error) := by
      cases presentation <;> rfl
    simp [failed]
  | ok payload =>
    refine iff_of_false (fun failed => ?_) nofun
    cases presentation with
    | document =>
      have read : Presentation.document.present (.ok payload) = Command.shown payload.decode := rfl
      rw [read] at failed
      cases payload with
      | document body =>
        simp only [Payload.decode] at failed
        split at failed <;> cases failed
      | _ => cases failed
    | _ => cases failed

namespace Command

/-- The flags of a command that sends something. -/
def sending? : Command → Option (BodyFlags × CallFlags)
  | .post _ body call => some (body, call)
  | .put _ body call => some (body, call)
  | .patch _ body call => some (body, call)
  | .request _ _ body call => some (body, call)
  | _ => none

end Command

/-- How flags break what is agreed on of a body: where no type is given with it, none may be
asked for as a header, and where one is given, it may not be empty, unless another spelling
of the header makes up for it. It is read off from the flags alone, without making the call. -/
def BodyFlags.misuse? (body : BodyFlags) (headers : CallerHeaders) : Option Misuse :=
  if body.Bodiless then none
  else match body.contentType with
    | none => if headers.asksFor "content-type" then some .documentWithContentType else none
    | some type =>
      if type.isEmpty && !headers.asksApart "content-type" then some .bytesWithoutContentType
      else none

namespace Command

theorem bodyOf_cases {body : BodyFlags} {content : Bytes} {made : CallBody}
    (found : bodyOf body content = .ok made) :
    (body.contentType = none ∧ ∃ value, Json.read content = .ok value ∧ made = .document value) ∨
      ∃ type, body.contentType = some type ∧ made = .bytes content := by
  unfold bodyOf at found
  split_ifs at found with typed
  · cases found
    obtain ⟨type, known⟩ := Option.isSome_iff_exists.mp typed
    exact Or.inr ⟨type, known, rfl⟩
  · have untyped := Option.not_isSome_iff_eq_none.mp typed
    split at found <;> cases found
    exact Or.inl ⟨untyped, _, ‹_›, rfl⟩

/-- What is sent is nothing, or a document without a type of its own, or bytes with one. -/
theorem contentIn_cases {body : BodyFlags} {files : Files} {content : Option CallBody}
    (found : body.contentIn files = .ok content) :
    (body.Bodiless ∧ content = none) ∨
      ¬ body.Bodiless ∧ ∃ made, content = some made ∧
        ((body.contentType = none ∧ ∃ value, made = .document value) ∨
          ∃ type bytes, body.contentType = some type ∧ made = .bytes bytes) := by
  have made : ∀ {bytes : Bytes}, (bodyOf body bytes).map some = .ok content →
      ∃ made, content = some made ∧ ((body.contentType = none ∧ ∃ value, made = .document value) ∨
        ∃ type bytes, body.contentType = some type ∧ made = .bytes bytes) := by
    intro bytes given
    obtain ⟨made, known, rfl⟩ := map_eq_ok_iff.mp given
    rcases bodyOf_cases known with ⟨untyped, value, -, rfl⟩ | ⟨type, typed, rfl⟩
    · exact ⟨_, rfl, Or.inl ⟨untyped, value, rfl⟩⟩
    · exact ⟨_, rfl, Or.inr ⟨type, bytes, typed, rfl⟩⟩
  unfold BodyFlags.contentIn at found
  split at found
  · rename_i data dataFile known
    exact Or.inr ⟨fun bodiless => (nomatch known.symm.trans bodiless.1), made found⟩
  · rename_i path nothing known
    split at found
    · cases found
    · exact Or.inr ⟨fun bodiless => (nomatch known.symm.trans bodiless.2), made found⟩
  · rename_i nothing neither
    cases found
    exact Or.inl ⟨⟨nothing, neither⟩, rfl⟩

/-- The flags make a document or bytes of what is sent, and put the type that is given with
it among the headers under one spelling. What is broken between body and headers can be
followed back to them. -/
theorem misuse?_of_planWithBody {quiet : Bool} {now : Nat} {files : Files} {method : Http.Method}
    {path : String} {body : BodyFlags} {call : CallFlags} {plan : Plan}
    (planned : planWithBody quiet now files method path body call = .ok (some plan)) :
    ∃ headers, readHeaders call.headers = .ok headers ∧ plan.misuse? = body.misuse? headers := by
  obtain ⟨options, made, planned⟩ := bind_eq_ok_iff.mp planned
  obtain ⟨content, found, planned⟩ := bind_eq_ok_iff.mp planned
  obtain rfl := Option.some.inj (Except.ok.inj planned)
  obtain ⟨headers, read, given⟩ := headers_of_callOptions made
  have apart : CallerHeaders.sameName fileNameHeader "content-type" = false := by decide
  have asks : options.headers.asksFor "content-type" = headers.asksFor "content-type" := by
    rw [given]
    cases call.output with
    | none => rfl
    | some fileName => exact CallerHeaders.asksFor_set_of_apart apart fileName
  have spells : options.headers.asksApart "content-type" = headers.asksApart "content-type" := by
    rw [given]
    cases call.output with
    | none => rfl
    | some fileName => exact CallerHeaders.asksApart_set_of_apart apart fileName
  refine ⟨headers, read, ?_⟩
  rw [Plan.misuse?, BodyFlags.misuse?]
  rcases contentIn_cases (mapError_eq_ok_iff.mp found) with
    ⟨bodiless, rfl⟩ | ⟨filled, _, rfl, ⟨untyped, value, rfl⟩ | ⟨type, bytes, typed, rfl⟩⟩
  · rw [if_pos bodiless]
    rfl
  · rw [if_neg filled, untyped]
    change (if options.headers.asksFor "content-type" then _ else _) = _
    rw [asks]
  · rw [if_neg filled, typed]
    change (if (options.headers.set "content-type" type).asksFor "content-type" then none else _) =
      if type.isEmpty && !headers.asksApart "content-type" then _ else none
    rw [CallerHeaders.asksFor_set_self, spells]
    cases type.isEmpty <;> cases headers.asksApart "content-type" <;> rfl

/-- What a command stands for that sends something. -/
theorem planWithBody_of_plan? {quiet : Bool} {now : Nat} {files : Files} {command : Command}
    {body : BodyFlags} {call : CallFlags} {plan : Plan}
    (sends : command.sending? = some (body, call))
    (planned : command.plan? quiet now files = .ok (some plan)) :
    ∃ method path, planWithBody quiet now files method path body call = .ok (some plan) := by
  cases command with
  | post path flags options =>
    cases sends
    exact ⟨.post, path, planned⟩
  | put path flags options =>
    cases sends
    exact ⟨.put, path, planned⟩
  | patch path flags options =>
    cases sends
    exact ⟨.patch, path, planned⟩
  | request method path flags options =>
    cases sends
    obtain ⟨verb, -, planned⟩ := bind_eq_ok_iff.mp planned
    exact ⟨verb, path, planned⟩
  | get path accept options => cases sends
  | delete path options => cases sends
  | login => cases sends

theorem misuse?_of_plan? {quiet : Bool} {now : Nat} {files : Files} {command : Command}
    {body : BodyFlags} {call : CallFlags} {plan : Plan}
    (sends : command.sending? = some (body, call))
    (planned : command.plan? quiet now files = .ok (some plan)) :
    ∃ headers, readHeaders call.headers = .ok headers ∧ plan.misuse? = body.misuse? headers := by
  obtain ⟨method, path, planned⟩ := planWithBody_of_plan? sends planned
  exact misuse?_of_planWithBody planned

/-- A command that stands for a call ends as a misuse where that call does. -/
theorem run_misuse_iff {client : Client} {world : World} {quiet : Bool} {now : Nat}
    {command : Command} {plan : Plan} {what : Misuse}
    (planned : command.plan? quiet now world.files = .ok (some plan)) :
    (world.run (command.run client quiet now)).1 = some (.error (.call (.misuse what))) ↔
      (world.run (Call.execute client plan.call plan.options)).1.2 = .error (.misuse what) := by
  have way := course client world quiet now command
  rw [planned] at way
  cases way with
  | planned reading run steps reads =>
    rw [run, Option.some_inj]
    exact Presentation.present_misuse_iff

theorem exchanges_of_planned {client : Client} {world : World} {quiet : Bool} {now : Nat}
    {command : Command} {plan : Plan}
    (planned : command.plan? quiet now world.files = .ok (some plan)) :
    exchanges (proceedings (world.steps (command.run client quiet now))) =
      exchanges (proceedings (world.steps (Call.execute client plan.call plan.options))) := by
  have way := course client world quiet now command
  rw [planned] at way
  cases way with
  | planned reading run steps reads =>
    rw [steps, proceedings_append, proceedings_of_local reads, List.nil_append]

/-- A command that sends something, and whose input is accepted, ends as a misuse exactly
where its flags break what is agreed on of a body: its type is given as a header only, or it
is empty. Then nothing is sent. Input is accepted here without a look at what will be agreed
on later, which is how such flags come to be made into a call. -/
theorem body_contract {quiet : Bool} {now : Nat} {files : Files} {command : Command}
    {body : BodyFlags} {call : CallFlags} {plan : Plan}
    (sends : command.sending? = some (body, call))
    (planned : command.plan? quiet now files = .ok (some plan)) :
    ∃ headers, readHeaders call.headers = .ok headers ∧
      ∀ (client : Client) (world : World), world.files = files →
        (∀ what, (world.run (command.run client quiet now)).1 =
            some (.error (.call (.misuse what))) →
          body.misuse? headers = some what ∨ ∃ type, what = .noFileName type) ∧
        ∀ what, body.misuse? headers = some what →
          exchanges (proceedings (world.steps (command.run client quiet now))) = [] ∧
          (world.profile.hasToken = true → (∃ base, world.profile.baseUrl = .ok base) →
            (world.run (command.run client quiet now)).1 =
              some (.error (.call (.misuse what)))) := by
  obtain ⟨headers, read, same⟩ := misuse?_of_plan? sends planned
  refine ⟨headers, read, ?_⟩
  rintro client world rfl
  rw [← same]
  refine ⟨fun what failed => ?_, fun what broken => ⟨?_, fun token based => ?_⟩⟩
  · exact Call.misuse_of_execute ((run_misuse_iff planned).mp failed)
  · rw [exchanges_of_planned planned]
    exact Call.execute_unsent (Call.requestOf_ne_ok broken)
  · obtain ⟨-, message, run⟩ := Call.execute_unmade token
      (Profile.requestOf_misuse_iff.mpr ⟨based, broken⟩)
    rw [run_misuse_iff planned, run]

/-- A profile with a token, for a platform that accepts everything. -/
def acceptingWorld : World where
  profile := { url := "http://platform.test", token := "tok" }
  files := Files.emptyAt ["work"]
  remote := .script [.answer (.response Http.ok [] (Text.encode "\x7b\x7d"))]

/-- A document that is posted with these flags for it. -/
def posting (headers : List String) (type : Option String) : Command :=
  .post "/x" { data := some "\x7b\x7d", contentType := type } { headers }

theorem body_contract_empty_type :
    ∃ plan, (posting [] (some "")).plan? false 0 acceptingWorld.files = .ok (some plan) ∧
      ∀ client : Client,
        exchanges (proceedings (acceptingWorld.steps
          ((posting [] (some "")).run client false 0))) = [] ∧
        (acceptingWorld.run ((posting [] (some "")).run client false 0)).1 =
          some (.error (.call (.misuse .bytesWithoutContentType))) := by
  have accepted : ((posting [] (some "")).plan? false 0 acceptingWorld.files).isOk = true := by
    decide +kernel
  have based : ∃ base, acceptingWorld.profile.baseUrl = .ok base :=
    exists_eq_ok (by decide +kernel)
  obtain ⟨_ | plan, planned⟩ := exists_eq_ok accepted
  · exact absurd planned planWithBody_ne_none
  · refine ⟨plan, planned, fun client => ?_⟩
    obtain ⟨headers, read, ends⟩ := body_contract rfl planned
    cases read
    obtain ⟨unsent, failed⟩ := (ends client acceptingWorld rfl).2 .bytesWithoutContentType rfl
    exact ⟨unsent, failed rfl based⟩

/-- A document cannot be posted with its type as a header. -/
theorem body_contract_type_as_header :
    (read ["post", "/x", "-d", "\x7b\x7d", "-H", "Content-Type=application/json"]).toOption =
        some { command := posting ["Content-Type=application/json"] none } ∧
      (acceptingWorld.run ((posting ["Content-Type=application/json"] none).run
        { userAgent := none } false 0)).1.map outcome =
        some ⟨1, "", "Error: (bug) HTTP request body must be raw bytes " ++
          "if Content-Type is provided, found a JSON value instead\n"⟩ := by
  constructor <;> decide +kernel

end Command

end PlatformClient
