import PlatformClient.Call.Execution
import PlatformClient.Proofs.AlikeLogins

namespace PlatformClient

/-- What a program itself asks for is asked for alike. -/
theorem CallOptions.Alike.set {options other : CallOptions} (name value : String)
    (alike : options.Alike other) :
    Alike { options with headers := options.headers.set name value }
      { other with headers := other.headers.set name value } := by
  refine ⟨alike.headers.set (.refl (name, value)), ?_⟩
  rw [alike.rest]

/-- The header that names a file is no authorization. -/
theorem fileNameHeader_plain :
    Http.HeaderName.ofString? fileNameHeader ≠ some .authorization := by decide

namespace Payload

theorem handling_eq {headers other : CallerHeaders} (method : Http.Method)
    (response : Http.Response) (asked : headers.Alike other) :
    handling method headers response = handling method other response := by
  unfold handling
  rw [asked.get?_eq fileNameHeader_plain]

theorem ofResponse_alike {headers other : CallerHeaders} (method : Http.Method)
    (response : Http.Response) (asked : headers.Alike other) :
    Program.Alike (AlikeResults (· = ·)) (ofResponse method headers response).run
      (ofResponse method other response).run := by
  unfold ofResponse
  rw [handling_eq method response asked]
  cases handling method other response with
  | pass payload => exact Attempt.alike_result (.ok rfl)
  | refuse misuse => exact Attempt.alike_result (.error _)
  | save path =>
    refine Attempt.alike_bind (Attempt.alike_lift (Program.alike_writeFile path response.body))
      fun written otherWritten same => ?_
    subst same
    cases written with
    | error fault => exact Attempt.alike_result (.error _)
    | ok done =>
      exact Attempt.alike_bind (Attempt.alike_lift (Program.alike_record _)) fun _ _ _ =>
        Attempt.alike_result (.ok rfl)

end Payload

namespace Call

variable {client : Client} {options other : CallOptions}

theorem within_alike {attempt otherAttempt : Attempt (Halt CallError) Unit} (method : Http.Method)
    (place : String)
    (alike : Program.Alike (AlikeResults (· = ·)) attempt.run otherAttempt.run) :
    Program.Alike (AlikeResults (· = ·)) (within method place attempt).run
      (within method place otherAttempt).run := Attempt.alike_adapt _ alike

theorem indicate_alike (event : ProgressEvent) (alike : options.Alike other) :
    Program.Alike (· = ·) (indicate options event) (indicate other event) := by
  have quiet : other.quiet = options.quiet := by rw [alike.rest]
  unfold indicate
  rw [quiet]
  split
  · exact .done rfl
  · exact Program.alike_record _

theorem stopIndicator_alike (ending : ProgressEnding) (alike : options.Alike other) :
    Program.Alike (· = ·) (stopIndicator options ending) (stopIndicator other ending) :=
  indicate_alike ending.event alike

theorem label_eq (trial : Trial) {request otherRequest : Http.Request}
    (alike : request.Alike otherRequest) : label trial request = label trial otherRequest := by
  unfold label
  rw [alike.method, alike.url]

theorem responseOfReply_eq {request otherRequest : Http.Request} (reply : Http.Reply)
    (alike : request.Alike otherRequest) :
    responseOfReply request reply = responseOfReply otherRequest reply := by
  unfold responseOfReply
  rw [alike.method, alike.url]

theorem exchange_alike (call : Call) (trial : Trial) (alike : options.Alike other) :
    Program.Alike (AlikeResults (· = ·)) (exchange client call options trial).run
      (exchange client call other trial).run := by
  unfold exchange
  refine Attempt.alike_bind Client.context_alike fun context otherContext contexts => ?_
  refine Attempt.alike_bind
    (Attempt.alike_result (contexts.request call.method call.path call.body alike.headers))
    fun request otherRequest requests => ?_
  refine Attempt.alike_bind (Attempt.alike_lift (Client.showCommand_alike requests))
    fun _ _ _ => ?_
  rw [label_eq trial requests]
  refine Attempt.alike_bind (Attempt.alike_lift (indicate_alike _ alike)) fun _ _ _ => ?_
  refine Attempt.alike_bind
    (Attempt.alike_lift (Program.alike_call (requests.sentBy client.userAgent)))
    fun reply otherReply same => ?_
  subst same
  rw [responseOfReply_eq reply requests]
  cases responseOfReply otherRequest reply with
  | ok response => exact Attempt.alike_result (.ok rfl)
  | error error =>
    exact Attempt.alike_bind (Attempt.alike_lift (stopIndicator_alike .dropped alike)) fun _ _ _ =>
      Attempt.alike_result (.error _)

theorem reject_alike (response : Http.Response) (alike : options.Alike other) :
    Program.Alike (AlikeResults (· = ·)) (reject options response).run
      (reject other response).run := by
  have expected : other.expected = options.expected := by rw [alike.rest]
  unfold reject
  refine Attempt.alike_bind (Attempt.alike_lift (stopIndicator_alike _ alike)) fun _ _ _ => ?_
  rw [expected]
  split
  all_goals
    exact Attempt.alike_bind (Attempt.alike_lift (Program.alike_record _)) fun _ _ _ =>
      Attempt.alike_result (.error _)

theorem finished_alike (response : Http.Response) (alike : options.Alike other) :
    Program.Alike (AlikeResults (· = ·))
      (do stopIndicator options (.finished true); return response :
        Attempt CallError Http.Response).run
      (do stopIndicator other (.finished true); return response :
        Attempt CallError Http.Response).run :=
  Attempt.alike_bind (Attempt.alike_lift (stopIndicator_alike _ alike)) fun _ _ _ =>
    Attempt.alike_result (.ok rfl)

/-- Two alike calls decide alike what comes next, since the transition looks at the status
only, and the replies to calls are the same. -/
theorem response_alike (call : Call) (discreet : client.login.Discreet)
    (alike : options.Alike other) :
    Program.Alike (AlikeResults (· = ·)) (response client call options).run
      (response client call other).run := by
  unfold response
  refine Attempt.alike_bind
    (within_alike call.method call.path (Client.ensureToken_alike discreet)) fun _ _ _ => ?_
  refine Attempt.alike_bind (exchange_alike call .first alike) fun first _ same => ?_
  subst same
  cases Transition.of .first first.status with
  | succeed => exact finished_alike first alike
  | fail => exact reject_alike first alike
  | refreshAndRetry =>
    refine Attempt.alike_bind (Attempt.alike_lift (stopIndicator_alike .hidden alike))
      fun _ _ _ => ?_
    refine Attempt.alike_bind
      (within_alike call.method call.path (Client.refreshToken_alike discreet)) fun _ _ _ => ?_
    refine Attempt.alike_bind (Attempt.alike_lift (Program.alike_record _)) fun _ _ _ => ?_
    refine Attempt.alike_bind (exchange_alike call .afterRefresh alike) fun second _ same => ?_
    subst same
    cases Transition.of .afterRefresh second.status with
    | succeed => exact finished_alike second alike
    | _ => exact reject_alike second alike

/-- What a call comes to, where the options that it leaves behind are not the same but
alike. The result itself is the same. -/
def AlikeEnds {α : Type} (ends otherEnds : CallOptions × Except CallError α) : Prop :=
  ends.1.Alike otherEnds.1 ∧ ends.2 = otherEnds.2

/-- Alike calls take alike steps. The headers of the caller are asked for the name of a
file, which is no authorization and therefore the same. -/
theorem execute_alike (call : Call) (discreet : client.login.Discreet)
    (alike : options.Alike other) :
    Program.Alike AlikeEnds (execute client call options) (execute client call other) := by
  unfold execute
  refine (Program.alike_record _).bind fun _ _ _ => ?_
  refine (response_alike call discreet alike).bind fun result _ results => ?_
  obtain rfl := results.eq_of_eq
  cases result with
  | error error => exact .done ⟨alike, rfl⟩
  | ok received =>
    refine (Payload.ofResponse_alike call.method received alike.headers).bind
      fun payload _ payloads => ?_
    obtain rfl := payloads.eq_of_eq
    refine .done ⟨⟨alike.headers, ?_⟩, rfl⟩
    rw [alike.rest]

theorem decoded_alike (call : Call) (discreet : client.login.Discreet)
    (alike : options.Alike other) :
    Program.Alike AlikeEnds (decoded client call options) (decoded client call other) :=
  (execute_alike call discreet alike).bind fun _ _ ends => .done ⟨ends.1, by rw [ends.2]⟩

theorem document_alike (method : Http.Method) (path : String) (body : Option (Except String Json))
    (discreet : client.login.Discreet) (alike : options.Alike other) :
    Program.Alike AlikeEnds (document client method path body options)
      (document client method path body other) := by
  match body with
  | none => exact decoded_alike _ discreet alike
  | some (.ok value) => exact decoded_alike _ discreet alike
  | some (.error why) => exact .done ⟨alike, rfl⟩

theorem delete_alike (path : String) (discreet : client.login.Discreet)
    (alike : options.Alike other) :
    Program.Alike AlikeEnds (delete client path options) (delete client path other) :=
  (execute_alike _ discreet alike).bind fun _ _ ends => .done ⟨ends.1, by rw [ends.2]⟩

end Call

end PlatformClient
