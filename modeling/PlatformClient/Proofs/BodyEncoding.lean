import PlatformClient.Proofs.BodyContracts
import PlatformClient.Proofs.JsonDocuments

namespace PlatformClient

/-- A type of what is sent is stated: a value that is not empty is asked for under its header, in
whatever case that is written. -/
def CallerHeaders.StatesType (headers : CallerHeaders) : Prop :=
  ∃ header ∈ headers,
    header.1.toList.map Char.toLower = "content-type".toList ∧ header.2 ≠ ""

theorem CallerHeaders.asksFor_type_iff {headers : CallerHeaders} :
    headers.asksFor "content-type" = true ↔ headers.StatesType := by
  have plain : "content-type".toList.map Char.toLower = "content-type".toList := by decide
  simp only [asksFor, List.any_eq_true, Bool.and_eq_true, StatesType, sameName_iff, plain,
    Bool.not_eq_true', String.isEmpty_eq_false_iff]

namespace CallContext

variable {context : CallContext} {method : Http.Method} {path : String} {headers : CallerHeaders}
  {request : Http.Request}

theorem encodeBody_of_request {body : Option CallBody}
    (made : context.request method path body headers = .ok request) :
    encodeBody headers body = .ok request.body := by
  obtain ⟨content, _, _, _, encoded, -, -, -, rfl⟩ := request_eq_ok_iff.mp made
  exact encoded

/-- A document is sent without a type of the caller's, and then on one line. The text
depends on the document alone, so it is the same in every request for it. -/
theorem encodeBody_document_iff {value : Json} {sent : Option Bytes} :
    encodeBody headers (some (.document value)) = .ok sent ↔
      ¬ headers.StatesType ∧ sent = some (Text.encode value.compact) := by
  rw [encodeBody, ← CallerHeaders.asksFor_type_iff]
  split_ifs with typed <;> simp [typed, eq_comm]

/-- Bytes are sent with a type of the caller's, and then as they are. -/
theorem encodeBody_bytes_iff {content : Bytes} {sent : Option Bytes} :
    encodeBody headers (some (.bytes content)) = .ok sent ↔
      headers.StatesType ∧ sent = some content := by
  rw [encodeBody, ← CallerHeaders.asksFor_type_iff]
  split_ifs with typed <;> simp [typed, eq_comm]

/-- What becomes of a body in a request: there is none, or a document that can be read
again, or bytes as they were given. Neither is sent without what is agreed on of the type,
which is looked at before all else: the two refusals hold whatever the path and the other
headers are, also where these would be refused themselves. -/
structure EncodesBody (context : CallContext) (method : Http.Method) (path : String)
    (headers : CallerHeaders) : Prop where
  none : ∀ request, context.request method path none headers = .ok request → request.body = none
  document : ∀ value request,
    context.request method path (some (.document value)) headers = .ok request →
      ¬ headers.StatesType ∧ ∃ sent, request.body = some sent ∧
        (Json.Sound Json.depthLimit value → Json.read sent = .ok value)
  bytes : ∀ content request,
    context.request method path (some (.bytes content)) headers = .ok request →
      headers.StatesType ∧ request.body = some content
  typedDocument : ∀ value, headers.StatesType →
    context.request method path (some (.document value)) headers =
      .error (.misuse .documentWithContentType)
  untypedBytes : ∀ content, ¬ headers.StatesType →
    context.request method path (some (.bytes content)) headers =
      .error (.misuse .bytesWithoutContentType)

/-- The first three follow from a request that is made, whose body is what the encoding
gave. The two refusals need no such request, since the type comes before everything that
could fail otherwise. -/
theorem encodesBody (context : CallContext) (method : Http.Method) (path : String)
    (headers : CallerHeaders) : context.EncodesBody method path headers where
  none request made := (Except.ok.inj (encodeBody_of_request made)).symm
  document value request made := by
    obtain ⟨untyped, sent⟩ := encodeBody_document_iff.mp (encodeBody_of_request made)
    exact ⟨untyped, _, sent, Json.read_compact⟩
  bytes content request made := encodeBody_bytes_iff.mp (encodeBody_of_request made)
  typedDocument value typed := request_misuse_iff.mpr
    (by rw [bodyMisuse?, if_pos (CallerHeaders.asksFor_type_iff.mpr typed)])
  untypedBytes content untyped := request_misuse_iff.mpr
    (by rw [bodyMisuse?, if_neg (mt CallerHeaders.asksFor_type_iff.mp untyped)])

end CallContext

namespace BodyFlags

variable {body : BodyFlags} {files : Files} {content : Bytes}

/-- The bytes that are given to be sent: on the command line, or else in a file that can be
read. Where neither is given there are none, and nothing is said of the command. -/
def Gives (body : BodyFlags) (files : Files) (content : Bytes) : Prop :=
  match body.data, body.dataFile with
  | some data, _ => content = Text.encode data
  | none, some path => files.read path = .ok content
  | none, none => False

theorem Gives.contentIn_eq (given : body.Gives files content) :
    body.contentIn files = (Command.bodyOf body content).map some := by
  unfold Gives at given
  unfold contentIn
  cases known : body.data with
  | some data =>
    rw [known] at given
    rw [given]
  | none =>
    cases source : body.dataFile with
    | some path =>
      rw [known, source] at given
      dsimp only
      rw [given]
    | none =>
      rw [known, source] at given
      exact given.elim

/-- What is sent for the bytes that are given: just these with a type, else the document
that they hold, in a text of its own. That text need not be the given one, but the same
document is read from it where all its numbers are whole. -/
def Sends (body : BodyFlags) (content : Bytes) (sent : Option Bytes) : Prop :=
  match body.contentType with
  | some _ => sent = some content
  | none => ∃ document text, Json.read content = .ok document ∧ sent = some text ∧
      (document.Whole → Json.read text = .ok document)

/-- What is made of the bytes that are given is sent for them, if it is sent at all. Without
a type they were read as a document before, so the depth at which that document can be read
again is known from the first reading. -/
theorem sends_of_encodeBody {made : CallBody} {headers : CallerHeaders} {sent : Option Bytes}
    (found : Command.bodyOf body content = .ok made)
    (encoded : CallContext.encodeBody headers (some made) = .ok sent) :
    body.Sends content sent := by
  unfold Sends
  rcases Command.bodyOf_cases found with ⟨untyped, document, read, rfl⟩ | ⟨type, typed, rfl⟩
  · rw [untyped]
    obtain ⟨-, text⟩ := CallContext.encodeBody_document_iff.mp encoded
    exact ⟨document, _, read, text, fun whole => Json.read_compact (Json.sound_of_read read whole)⟩
  · rw [typed]
    exact (CallContext.encodeBody_bytes_iff.mp encoded).2

end BodyFlags

namespace Command

variable {client : Client} {world : World} {quiet : Bool} {now : Nat} {command : Command}

/-- Only a command that stands for a call sends its request. The login exchanges of the
others are not among these, since they belong to no call. -/
theorem exchanges_of_unplanned
    (unplanned : ∀ plan, command.plan? quiet now world.files ≠ .ok (some plan)) :
    exchanges (proceedings (world.steps (command.run client quiet now))) = [] := by
  have way := course client world quiet now command
  generalize command.plan? quiet now world.files = planned at way unplanned
  cases way with
  | rejected run reads =>
    rw [proceedings_of_local reads.isLocal]
    rfl
  | beyondClock run =>
    rw [World.eq_pure_of_beyondClock (congrArg Prod.fst run)]
    rfl
  | planned => exact absurd rfl (unplanned _)
  | login run steps ends =>
    rw [steps]
    rfl

theorem planSending_body (method : Http.Method) (path : String) (type : Option String)
    (options : CallOptions) (content : Option CallBody) :
    (planSending method path type options content).call.body = content := by
  rcases content with _ | _ | _ <;> rfl

/-- The request of a command has for its body what is sent for the bytes that are given.
Every exchange of a call sends one and the same request but for its token, which is why
nothing has to be said here of how often it is tried. -/
theorem sends_of_exchange {body : BodyFlags} {call : CallFlags} {content : Bytes}
    (sends : command.sending? = some (body, call)) (given : body.Gives world.files content)
    {request : Http.Request} {reply : Http.Reply} (sent : (request, reply) ∈
      exchanges (proceedings (world.steps (command.run client quiet now)))) :
    body.Sends content request.body := by
  by_cases planned : ∃ plan, command.plan? quiet now world.files = .ok (some plan)
  · obtain ⟨plan, planned⟩ := planned
    rw [exchanges_of_planned planned] at sent
    obtain ⟨profile, request, built, rfl⟩ := Call.built_of_execute sent
    obtain ⟨context, -, built⟩ := Profile.requestOf_eq_ok_iff.mp built
    obtain ⟨method, path, planned⟩ := planWithBody_of_plan? sends planned
    obtain ⟨options, -, planned⟩ := bind_eq_ok_iff.mp planned
    obtain ⟨found, known, planned⟩ := bind_eq_ok_iff.mp planned
    obtain rfl := Option.some.inj (Except.ok.inj planned)
    rw [mapError_eq_ok_iff, given.contentIn_eq] at known
    obtain ⟨made, accepted, rfl⟩ := map_eq_ok_iff.mp known
    have encoded := CallContext.encodeBody_of_request built
    rw [planSending_body] at encoded
    exact BodyFlags.sends_of_encodeBody accepted encoded
  · rw [exchanges_of_unplanned (not_exists.mp planned)] at sent
    cases sent

/-- A request has for its body what its caller gives: the document or the bytes. The same
goes for every request of a command, whether what it sends is given on the command line or
in a file, and however often it is tried. The first half is about the call itself and takes
any document, the second about the command line, whose documents are those that were read
from the given bytes. -/
theorem body_encoding :
    (∀ (context : CallContext) (method : Http.Method) (path : String) (headers : CallerHeaders),
      context.EncodesBody method path headers) ∧
    ∀ (client : Client) (world : World) (quiet : Bool) (now : Nat) (command : Command)
      (body : BodyFlags) (call : CallFlags) (content : Bytes),
      command.sending? = some (body, call) → body.Gives world.files content →
        ∀ exchange ∈ exchanges (proceedings (world.steps (command.run client quiet now))),
          body.Sends content exchange.1.body := by
  refine ⟨CallContext.encodesBody, ?_⟩
  rintro client world quiet now command body call content sends given ⟨request, reply⟩ sent
  exact sends_of_exchange sends given sent

/-- A document with a name twice, two escapes, and the least and the greatest number. -/
def escapedText : String :=
  "\x7b\"b\": [-9223372036854775808, 18446744073709551615], \"a\": 0, \"a\": \"\\u001f\\/\"\x7d"

/-- The same document as it is sent. -/
def resentText : String :=
  "\x7b\"a\":\"\\u001f/\",\"b\":[-9223372036854775808,18446744073709551615]\x7d"

def postingEscaped : Command := .post "/x" { data := some escapedText } {}

/-- The token is refused, and the document is sent once more. -/
theorem body_encoding_sent_twice :
    (exchanges (proceedings (refusingWorld.steps (postingEscaped.run .handing false 0)))).map
        (·.1.body) = [some (Text.encode resentText), some (Text.encode resentText)] ∧
      ∀ exchange ∈
          exchanges (proceedings (refusingWorld.steps (postingEscaped.run .handing false 0))),
        BodyFlags.Sends { data := some escapedText } (Text.encode escapedText) exchange.1.body :=
  ⟨by decide +kernel, body_encoding.2 .handing refusingWorld false 0 postingEscaped _ _ _ rfl rfl⟩

end Command

end PlatformClient
