import PlatformClient.Proofs.FinalResponses
import PlatformClient.Proofs.TextParts

namespace PlatformClient

/-- The type that a response declares: the first value of its `Content-Type`, if that
can be read, up to the first semicolon and without the blanks around it. -/
def Http.Response.Declares (response : Http.Response) (type : String) : Prop :=
  ∃ value text, response.headers.get? .contentType = some value ∧
    readableValue? value = some text ∧
    type = Text.trim (String.ofList (text.toList.takeWhile (· != ';')))

/-- A response whose body is a file of the type that it declares. -/
def Http.Response.IsFile (response : Http.Response) (type : String) : Prop :=
  response.Declares type ∧ (type = "application/octet-stream" ∨ type = "application/zip")

namespace Payload

theorem contentType_of_declares {response : Http.Response} {type : String}
    (declared : response.Declares type) : contentType response.headers = type := by
  obtain ⟨value, text, first, readable, rfl⟩ := declared
  have known : response.headers.get? .contentType >>= Http.readableValue? = some text :=
    Option.bind_eq_some_iff.mpr ⟨value, first, readable⟩
  rw [contentType, known, Text.trim, String.toList_ofList, ← Text.headD_splitAll]

theorem contentType_of_undeclared {response : Http.Response}
    (undeclared : ∀ type, ¬ response.Declares type) : contentType response.headers = "" := by
  cases known : response.headers.get? .contentType >>= Http.readableValue? with
  | none => rw [contentType, known]
  | some text =>
    obtain ⟨value, first, readable⟩ := Option.bind_eq_some_iff.mp known
    exact absurd ⟨value, text, first, readable, rfl⟩ (undeclared _)

theorem fileTypes_contains_iff {type : String} :
    fileTypes.contains type = true ↔
      type = "application/octet-stream" ∨ type = "application/zip" := by
  simp [fileTypes]

variable {method : Http.Method} {headers : CallerHeaders} {response : Http.Response}

/-- A file is saved under the name that is given for it, and refused without one. -/
theorem handling_file {type : String} (kept : method ≠ .delete) (file : response.IsFile type) :
    handling method headers response =
      match (headers.get? fileNameHeader).filter (!·.isEmpty) with
      | some path => .save path
      | none => .refuse (.noFileName type) := by
  have known := fileTypes_contains_iff.mpr file.2
  cases named : (headers.get? fileNameHeader).filter (!·.isEmpty) <;>
    simp only [handling, contentType_of_declares file.1, if_neg kept, known, if_true, named]

/-- What is no file is a document, unless there is nothing in it or it points elsewhere. -/
theorem handling_other (kept : method ≠ .delete) (other : ∀ type, ¬ response.IsFile type) :
    handling method headers response =
      .pass (if response.body = [] ∨ response.status = Http.seeOther then .empty
        else .document response.body) := by
  have unknown : fileTypes.contains (contentType response.headers) = false := by
    by_cases declared : ∃ type, response.Declares type
    · obtain ⟨type, declared⟩ := declared
      rw [contentType_of_declares declared]
      refine Bool.eq_false_iff.mpr fun listed => ?_
      exact other type ⟨declared, fileTypes_contains_iff.mp listed⟩
    · rw [contentType_of_undeclared (not_exists.mp declared)]
      decide
  simp only [handling, if_neg kept, unknown, List.isEmpty_iff, Bool.false_eq_true, if_false]
  split_ifs <;> rfl

/-- What a payload comes to, and the file that is written for it. At most one file is
written, with the bytes of the body as they are. -/
theorem ofResponse_runs {steps : List Step} {result : Except CallError Payload}
    (runs : (ofResponse method headers response).run.Runs steps result) :
    match handling method headers response with
    | .pass payload => steps = [] ∧ result = .ok payload
    | .refuse misuse => steps = [] ∧ result = .error (.misuse misuse)
    | .save path => ∃ written : Except Files.Fault Unit,
        writes steps = [⟨.writeFile path response.body, written⟩] ∧
        result = (written.mapError (.unsaved path)).map fun () => .saved path := by
  unfold ofResponse at runs
  cases known : handling method headers response with
  | pass payload =>
    rw [known] at runs
    exact Attempt.runs_result_iff.mp runs
  | refuse misuse =>
    rw [known] at runs
    exact Attempt.runs_result_iff.mp runs
  | save path =>
    rw [known] at runs
    obtain ⟨_, written, _, rfl, wrote, afterWrite⟩ := Attempt.runs_lift_bind_iff.mp runs
    obtain rfl := Program.runs_step_iff.mp wrote
    refine ⟨written, ?_⟩
    cases written with
    | error fault =>
      obtain ⟨rfl, rfl⟩ := Attempt.runs_result_iff.mp afterWrite
      exact ⟨rfl, rfl⟩
    | ok done =>
      obtain ⟨_, _, _, rfl, noted, afterNote⟩ := Attempt.runs_lift_bind_iff.mp afterWrite
      obtain rfl := Program.runs_record_iff.mp noted
      obtain ⟨rfl, rfl⟩ := Attempt.runs_result_iff.mp afterNote
      exact ⟨rfl, rfl⟩

theorem handling_refuse {misuse : Misuse}
    (refused : handling method headers response = .refuse misuse) :
    ∃ type, misuse = .noFileName type := by
  simp only [handling] at refused
  split_ifs at refused
  split at refused <;> cases refused
  exact ⟨_, rfl⟩

/-- Handling a response fails where a file has no name, or where it cannot be written. -/
theorem ofResponse_error {steps : List Step} {error : CallError}
    (runs : (ofResponse method headers response).run.Runs steps (.error error)) :
    (∃ type, error = .misuse (.noFileName type)) ∨ ∃ path fault, error = .unsaved path fault := by
  have shape := ofResponse_runs runs
  split at shape
  · cases shape.2
  · rename_i misuse refused
    cases shape.2
    obtain ⟨type, rfl⟩ := handling_refuse refused
    exact Or.inl ⟨type, rfl⟩
  · obtain ⟨written, -, failed⟩ := shape
    cases written with
    | error fault =>
      cases failed
      exact Or.inr ⟨_, fault, rfl⟩
    | ok done => cases failed

/-- The ways in which a response can be handled, by what is asked for, declared and named.
They are looked at in this order, and the first that applies decides. -/
theorem handling_cases (method : Http.Method) (headers : CallerHeaders)
    (response : Http.Response) :
    method = .delete ∨
    (∃ type, method ≠ .delete ∧ response.IsFile type ∧
      ((∃ path, headers.get? fileNameHeader = some path ∧ path ≠ "") ∨
        ∀ path, headers.get? fileNameHeader = some path → path = "")) ∨
    (method ≠ .delete ∧ ∀ type, ¬ response.IsFile type) := by
  by_cases deletion : method = .delete
  · exact Or.inl deletion
  by_cases file : ∃ type, response.IsFile type
  · obtain ⟨type, file⟩ := file
    refine Or.inr (Or.inl ⟨type, deletion, file, ?_⟩)
    by_cases named : ∃ path, headers.get? fileNameHeader = some path ∧ path ≠ ""
    · exact Or.inl named
    · exact Or.inr fun path given => not_not.mp fun other => named ⟨path, given, other⟩
  · exact Or.inr (Or.inr ⟨deletion, not_exists.mp file⟩)

section Runs

variable {steps : List Step} {result : Except CallError Payload}
  (runs : (ofResponse method headers response).run.Runs steps result)

include runs

theorem ofResponse_deleted (deletion : method = .delete) :
    writes steps = [] ∧ result = .ok .empty := by
  subst deletion
  obtain ⟨rfl, rfl⟩ := ofResponse_runs runs
  exact ⟨rfl, rfl⟩

theorem ofResponse_saved {type path : String} (kept : method ≠ .delete)
    (file : response.IsFile type) (named : headers.get? fileNameHeader = some path)
    (given : path ≠ "") : ∃ written : Except Files.Fault Unit,
      writes steps = [⟨.writeFile path response.body, written⟩] ∧
      result = (written.mapError (.unsaved path)).map fun () => .saved path := by
  have shape := ofResponse_runs runs
  rw [handling_file kept file, named] at shape
  simpa [Option.filter, given] using shape

theorem ofResponse_unnamed {type : String} (kept : method ≠ .delete)
    (file : response.IsFile type)
    (unnamed : ∀ path, headers.get? fileNameHeader = some path → path = "") :
    writes steps = [] ∧ result = .error (.misuse (.noFileName type)) := by
  have none : (headers.get? fileNameHeader).filter (!·.isEmpty) = none := by
    refine Option.filter_eq_none_iff.mpr fun path given => ?_
    simp [unnamed path given]
  have shape := ofResponse_runs runs
  rw [handling_file kept file, none] at shape
  obtain ⟨rfl, rfl⟩ := shape
  exact ⟨rfl, rfl⟩

theorem ofResponse_passed (kept : method ≠ .delete) (other : ∀ type, ¬ response.IsFile type) :
    writes steps = [] ∧ result = .ok (if response.body = [] ∨ response.status = Http.seeOther
      then .empty else .document response.body) := by
  have shape := ofResponse_runs runs
  rw [handling_other kept other] at shape
  obtain ⟨rfl, rfl⟩ := shape
  exact ⟨rfl, rfl⟩

/-- Handling a response writes at most one file: the body of a response that is one, under the
name that was given for it. -/
theorem ofResponse_written : ∀ step ∈ writes steps, ∃ type path, method ≠ .delete ∧
    response.IsFile type ∧ headers.get? fileNameHeader = some path ∧ path ≠ "" ∧
      step.effect = .writeFile path response.body := by
  intro step member
  rcases handling_cases method headers response with deletion |
    ⟨type, kept, file, ⟨path, named, given⟩ | unnamed⟩ | ⟨kept, other⟩
  · simp [(ofResponse_deleted runs deletion).1] at member
  · obtain ⟨written, wrote, -⟩ := ofResponse_saved runs kept file named given
    rw [wrote, List.mem_singleton] at member
    exact ⟨type, path, kept, file, named, given, by rw [member]⟩
  · simp [(ofResponse_unnamed runs kept file unnamed).1] at member
  · simp [(ofResponse_passed runs kept other).1] at member

/-- A response that points elsewhere is no document, and nothing is read from it. Its status
is looked at before its body. -/
theorem ofResponse_elsewhere (elsewhere : response.status = Http.seeOther) :
    (∀ body, result ≠ .ok (.document body)) ∧
      ∀ error excerpt, result ≠ .error (.decode error excerpt) := by
  rcases handling_cases method headers response with deletion |
    ⟨type, kept, file, ⟨path, named, given⟩ | unnamed⟩ | ⟨kept, other⟩
  · rw [(ofResponse_deleted runs deletion).2]
    exact ⟨nofun, nofun⟩
  · obtain ⟨written, -, rfl⟩ := ofResponse_saved runs kept file named given
    cases written <;> exact ⟨nofun, nofun⟩
  · rw [(ofResponse_unnamed runs kept file unnamed).2]
    exact ⟨nofun, nofun⟩
  · rw [(ofResponse_passed runs kept other).2, if_pos (Or.inr elsewhere)]
    exact ⟨nofun, nofun⟩

end Runs

end Payload

namespace World

/-- Where nothing else is written, the files are those behind the one write. If that has
failed, they are what they were. -/
theorem after_files_of_write {world : World} {steps : List Step} {path : String} {content : Bytes}
    {written : Except Files.Fault Unit} (allows : world.Allows steps)
    (one : writes steps = [⟨.writeFile path content, written⟩]) :
    world.files.write path content = written.map (fun () => (world.after steps).files) ∧
      ∀ fault, written = .error fault → (world.after steps).files = world.files := by
  -- What stands in front of the one write and behind it leaves the files alone.
  obtain ⟨first, rest, rfl, before, -, behind⟩ := List.filter_eq_cons_iff.mp one
  simp only [Bool.not_eq_true', Bool.not_eq_false] at before
  have spares := List.filter_eq_nil_iff.mp behind
  simp only [Bool.not_eq_true', Bool.not_eq_false] at spares
  obtain ⟨-, same, -⟩ := allows_append.mp allows
  have later : (world.after (first ++ ⟨.writeFile path content, written⟩ :: rest)).files =
      ((world.after first).answer (.writeFile path content)).2.files := by
    rw [after_append]
    exact after_files spares
  rw [later]
  simp only [answer_writeFile, after_files before] at same ⊢
  cases result : world.files.write path content with
  | error fault =>
    rw [result] at same
    obtain rfl : Except.error fault = written := same
    exact ⟨rfl, fun _ _ => after_files before⟩
  | ok files =>
    rw [result] at same
    obtain rfl : Except.ok () = written := same
    exact ⟨rfl, nofun⟩

end World

namespace Call

variable {client : Client} {call : Call} {options : CallOptions}

/-- What a call makes of the response with which it ends, and what it leaves as it is. The
conditions stand in the order in which the response is looked at: whether anything is wanted
of it, whether it is a file, whether it has a name, and whether it can be read. -/
structure HandlesResponse (client : Client) (call : Call) (options : CallOptions)
    (steps : List Step) (outcome : CallOptions × Except CallError Payload) : Prop where
  /-- The headers of the response are kept, whatever becomes of its body. Nothing else of the
  options changes. -/
  options_eq : outcome.1 = match wanted? (proceedings steps) with
    | some response => { options with responseHeaders := some response.headers }
    | none => options
  failed : wanted? (proceedings steps) = none →
    ownWrites steps = [] ∧ ∃ error, outcome.2 = .error error
  deleted : ∀ response, wanted? (proceedings steps) = some response → call.method = .delete →
    ownWrites steps = [] ∧ outcome.2 = .ok .empty
  /-- The body of a file is written under the name that the caller gave, once and as it is. -/
  saved : ∀ response type path, wanted? (proceedings steps) = some response →
    call.method ≠ .delete → response.IsFile type →
    options.headers.get? fileNameHeader = some path → path ≠ "" →
    ∃ written : Except Files.Fault Unit,
      ownWrites steps = [⟨.writeFile path response.body, written⟩] ∧
      outcome.2 = (written.mapError (.unsaved path)).map fun () => .saved path
  unnamed : ∀ response type, wanted? (proceedings steps) = some response →
    call.method ≠ .delete → response.IsFile type →
    (∀ path, options.headers.get? fileNameHeader = some path → path = "") →
    ownWrites steps = [] ∧ outcome.2 = .error (.misuse (.noFileName type))
  passed : ∀ response, wanted? (proceedings steps) = some response →
    call.method ≠ .delete → (∀ type, ¬ response.IsFile type) →
    ownWrites steps = [] ∧
      outcome.2 = .ok (if response.body = [] ∨ response.status = Http.seeOther then .empty
        else .document response.body)
  /-- No file is written but a response that is a file, under the name for it. -/
  written : ∀ step ∈ ownWrites steps, ∃ response type path,
    wanted? (proceedings steps) = some response ∧ call.method ≠ .delete ∧ response.IsFile type ∧
      options.headers.get? fileNameHeader = some path ∧ path ≠ "" ∧
      step.effect = .writeFile path response.body
  files_kept : client.SparesFiles → ∀ world : World, world.Allows steps → ownWrites steps = [] →
    (world.after steps).files = world.files
  files_written : client.SparesFiles → ∀ world : World, world.Allows steps →
    ∀ path content (result : Except Files.Fault Unit),
      ownWrites steps = [⟨.writeFile path content, result⟩] →
      world.files.write path content = result.map (fun () => (world.after steps).files) ∧
        ∀ fault, result = .error fault → (world.after steps).files = world.files

/-- A document is read from the payload of a call. -/
theorem decoded_runs {steps : List Step}
    {outcome : CallOptions × Except CallError (Option Json)}
    (runs : (decoded client call options).Runs steps outcome) :
    ∃ payload, (execute client call options).Runs steps (outcome.1, payload) ∧
      outcome.2 = payload >>= Payload.decode := by
  obtain ⟨first, ⟨after, payload⟩, rest, rfl, executed, done⟩ := Program.runs_bind_iff.mp runs
  obtain ⟨rfl, rfl⟩ := Program.runs_pure_iff.mp done
  exact ⟨payload, by rwa [List.append_nil], rfl⟩

/-- Every call handles its final response, and nothing but that. Nothing is assumed about
what the profile, the logins, the remote side and the files give: what is written and kept
depends on the last exchange and the options alone. -/
theorem response_handling {steps : List Step} {outcome : CallOptions × Except CallError Payload}
    (runs : (execute client call options).Runs steps outcome) :
    HandlesResponse client call options steps outcome := by
  have course := Course.of_runs runs
  have own (login : client.SparesFiles) := course.writes_eq login
  have kept (login : client.SparesFiles) (world : World) (_ : world.Allows steps)
      (nothing : ownWrites steps = []) : (world.after steps).files = world.files := by
    have spares := List.filter_eq_nil_iff.mp ((own login).trans nothing)
    simp only [Bool.not_eq_true', Bool.not_eq_false] at spares
    exact World.after_files spares
  have written (login : client.SparesFiles) (world : World) (allows : world.Allows steps)
      (path : String) (content : Bytes) (result : Except Files.Fault Unit)
      (one : ownWrites steps = [⟨.writeFile path content, result⟩]) :=
    World.after_files_of_write allows ((own login).trans one)
  rcases course.outcome_cases with ⟨none, nothing, error, rfl⟩ |
    ⟨response, handling, known, wrote, headers, handled⟩
  · exact {
      options_eq := by rw [none]
      failed := fun _ => ⟨nothing, error, rfl⟩
      deleted := by simp [none]
      saved := by simp [none]
      unnamed := by simp [none]
      passed := by simp [none]
      written := by simp [nothing]
      files_kept := kept
      files_written := written }
  · have same (other : Http.Response) (found : wanted? (proceedings steps) = some other) :
        other = response := Option.some.inj (found.symm.trans known)
    exact {
      options_eq := by rw [known, headers]
      failed := by simp [known]
      deleted := fun other found deletion => by
        rw [wrote]
        exact Payload.ofResponse_deleted handled deletion
      saved := fun other type path found deletion file named given => by
        obtain rfl := same other found
        rw [wrote]
        exact Payload.ofResponse_saved handled deletion file named given
      unnamed := fun other type found deletion file unnamed => by
        obtain rfl := same other found
        rw [wrote]
        exact Payload.ofResponse_unnamed handled deletion file unnamed
      passed := fun other found deletion none => by
        obtain rfl := same other found
        rw [wrote]
        exact Payload.ofResponse_passed handled deletion none
      written := by
        rw [wrote]
        intro step member
        obtain ⟨type, path, saved⟩ := Payload.ofResponse_written handled step member
        exact ⟨response, type, path, known, saved⟩
      files_kept := kept
      files_written := written }

/-- A file that comes behind a refusal is handled as any other, though it is the second
response of the call. -/
theorem response_handling_saved_file :
    (final? (proceedings refreshingSteps)).map (·.body) = some (Text.encode "PK") ∧
    HandlesResponse .handing .forObjects savingOptions refreshingSteps
      (refreshingWorld.run (execute .handing .forObjects savingOptions)).1 :=
  ⟨by decide +kernel, response_handling (refreshingWorld.runs_steps _)⟩

end Call

/-- What one may ask of the platform in order to read the document that comes back. -/
inductive Inquiry where
  | document (method : Http.Method) (path : String) (body : Option (Except String Json))
  | delete (path : String)
  | get (path : String)
  | post (path : String) (content : Bytes)

namespace Inquiry

variable {client : Client} {options : CallOptions} {steps : List Step}

def method : Inquiry → Http.Method
  | .document method .. => method
  | .delete _ => .delete
  | .get _ => .get
  | .post .. => .post

/-- Makes the call that is asked for. There is nothing to read behind a deletion. -/
def run (client : Client) (options : CallOptions) :
    Inquiry → Program (CallOptions × Except CallError (Option Json))
  | .document method path body => Call.document client method path body options
  | .delete path => do
    let (options, result) ← Call.delete client path options
    return (options, result.map fun () => none)
  | .get path => Call.get client path options
  | .post path content => Call.post client path content options

/-- Whatever is asked for is a call, and what comes back is read from its payload. Only where
the body cannot be encoded, no call is made. -/
theorem run_cases {inquiry : Inquiry} {outcome : CallOptions × Except CallError (Option Json)}
    (runs : (inquiry.run client options).Runs steps outcome) :
    steps = [] ∨ ∃ call payload, call.method = inquiry.method ∧
      (Call.execute client call options).Runs steps (outcome.1, payload) ∧
      (outcome.2 = payload >>= Payload.decode ∨
        inquiry.method = .delete ∧ outcome.2 = payload.map fun _ => none) := by
  cases inquiry with
  | document method path body =>
    rcases body with _ | error | value
    · obtain ⟨payload, executed, read⟩ := Call.decoded_runs runs
      exact Or.inr ⟨_, payload, rfl, executed, Or.inl read⟩
    · exact Or.inl (Program.runs_pure_iff.mp runs).1
    · obtain ⟨payload, executed, read⟩ := Call.decoded_runs runs
      exact Or.inr ⟨_, payload, rfl, executed, Or.inl read⟩
  | delete path =>
    obtain ⟨_, ⟨after, result⟩, _, rfl, deleted, done⟩ := Program.runs_bind_iff.mp runs
    obtain ⟨rfl, rfl⟩ := Program.runs_pure_iff.mp done
    obtain ⟨_, ⟨after, payload⟩, _, rfl, executed, done⟩ := Program.runs_bind_iff.mp deleted
    obtain ⟨rfl, same⟩ := Program.runs_pure_iff.mp done
    cases same
    refine Or.inr ⟨⟨.delete, path, none⟩, payload, rfl, by simpa using executed, ?_⟩
    exact Or.inr ⟨rfl, by cases payload <;> rfl⟩
  | get path =>
    obtain ⟨payload, executed, read⟩ := Call.decoded_runs runs
    exact Or.inr ⟨_, payload, rfl, executed, Or.inl read⟩
  | post path content =>
    obtain ⟨payload, executed, read⟩ := Call.decoded_runs runs
    exact Or.inr ⟨_, payload, rfl, executed, Or.inl read⟩

/-- What an inquiry comes to whose final response points elsewhere. Being a file comes
first, as for any other response. -/
structure EndsElsewhere (method : Http.Method) (headers : CallerHeaders) (steps : List Step)
    (response : Http.Response) (result : Except CallError (Option Json)) : Prop where
  passed : method = .delete ∨ (∀ type, ¬ response.IsFile type) → result = .ok none
  /-- A file is a file there, too, and nothing is read where it could be saved. -/
  saved : ∀ type path, method ≠ .delete → response.IsFile type →
    headers.get? fileNameHeader = some path → path ≠ "" →
    ∃ written : Except Files.Fault Unit,
      ownWrites steps = [⟨.writeFile path response.body, written⟩] ∧
      result = (written.mapError (.unsaved path)).map fun () => none
  unnamed : ∀ type, method ≠ .delete → response.IsFile type →
    (∀ path, headers.get? fileNameHeader = some path → path = "") →
    result = .error (.misuse (.noFileName type))
  /-- The body is never taken for a document. -/
  unread : (∀ value, result ≠ .ok (some value)) ∧
    ∀ error excerpt, result ≠ .error (.decode error excerpt)

/-- Where the payload is no document, there is nothing to read. -/
theorem read_eq_none {method : Http.Method} {payload : Except CallError Payload}
    {result : Except CallError (Option Json)} (undocumented : ∀ body, payload ≠ .ok (.document body))
    (read : result = payload >>= Payload.decode ∨
      method = .delete ∧ result = payload.map fun _ => none) :
    result = payload.map fun _ => none := by
  rcases read with rfl | ⟨-, rfl⟩
  · rcases payload with error | ⟨body⟩ | _ | path
    · rfl
    · exact absurd rfl (undocumented body)
    · rfl
    · rfl
  · rfl

/-- An inquiry whose final response points elsewhere gives nothing, and fails only where
that response is a file that is not saved. A pointer counts as success, and its body is
never taken for a document. -/
theorem ends_elsewhere {inquiry : Inquiry} {response : Http.Response}
    {outcome : CallOptions × Except CallError (Option Json)}
    (runs : (inquiry.run client options).Runs steps outcome)
    (final : Call.final? (proceedings steps) = some response)
    (elsewhere : response.status = Http.seeOther) :
    EndsElsewhere inquiry.method options.headers steps response outcome.2 := by
  have wanted : Call.wanted? (proceedings steps) = some response := by
    rw [Call.wanted?, final, Option.filter_some, elsewhere]
    rfl
  rcases run_cases runs with rfl | ⟨call, payload, asked, executed, read⟩
  · cases final
  rcases (Call.Course.of_runs executed).outcome_cases with ⟨none, -⟩ |
    ⟨other, handling, known, wrote, -, handled⟩
  · rw [none] at wanted
    cases wanted
  obtain rfl : other = response := Option.some.inj (known.symm.trans wanted)
  have plain := Payload.ofResponse_elsewhere handled elsewhere
  rw [read_eq_none plain.1 read, ← asked]
  exact {
    passed := by
      rintro (deletion | none)
      · rw [(Payload.ofResponse_deleted handled deletion).2]
        rfl
      by_cases deletion : call.method = .delete
      · rw [(Payload.ofResponse_deleted handled deletion).2]
        rfl
      · rw [(Payload.ofResponse_passed handled deletion none).2]
        rfl
    saved := fun type path kept file named given => by
      obtain ⟨written, wrote', saved⟩ := Payload.ofResponse_saved handled kept file named given
      refine ⟨written, wrote.trans wrote', ?_⟩
      rw [saved]
      cases written <;> rfl
    unnamed := fun type kept file unnamed => by
      rw [(Payload.ofResponse_unnamed handled kept file unnamed).2]
      rfl
    unread := by
      cases payload with
      | error error =>
        refine ⟨fun value same => ?_, fun why excerpt same => ?_⟩
        · cases same
        · cases same
          exact plain.2 why excerpt rfl
      | ok payload =>
        refine ⟨fun value same => ?_, fun why excerpt same => ?_⟩
        · cases same
        · cases same }

end Inquiry

/-- A platform that answers with a pointer elsewhere, of some type and with a body. -/
def redirectingWorld (type : String) : World where
  profile := { url := "http://platform.example", token := "tok" }
  files := Files.emptyAt ["work"]
  remote := .script [.answer (.response Http.seeOther
    [(.contentType, Text.encode type)] (Text.encode "moved"))]

namespace Inquiry

/-- A page that points elsewhere is nothing to read. -/
theorem ends_elsewhere_page :
    ((redirectingWorld "text/html").run (run .handing {} (.get "/objects"))).1.2.toOption.map
      Option.isNone = some true ∧
    ∃ response, EndsElsewhere .get []
      ((redirectingWorld "text/html").steps (run .handing {} (.get "/objects"))) response
      ((redirectingWorld "text/html").run (run .handing {} (.get "/objects"))).1.2 := by
  have seen : (Call.final? (proceedings ((redirectingWorld "text/html").steps
      (run .handing {} (.get "/objects"))))).map (·.status) = some Http.seeOther ∧
      ((redirectingWorld "text/html").run (run .handing {} (.get "/objects"))).1.2.toOption.map
        Option.isNone = some true := by
    decide +kernel
  obtain ⟨response, final, elsewhere⟩ := Option.map_eq_some_iff.mp seen.1
  have runs := (redirectingWorld "text/html").runs_steps (run .handing {} (.get "/objects"))
  exact ⟨seen.2, response, ends_elsewhere runs final elsewhere⟩

/-- An archive that points elsewhere is refused where no name is given for it. -/
theorem elsewhere_refused :
    (Call.final? (proceedings ((redirectingWorld "application/zip").steps
      (run .handing {} (.get "/objects"))))).map (·.status) = some Http.seeOther ∧
    ((redirectingWorld "application/zip").run (run .handing {} (.get "/objects"))).1.2.toOption =
      none := by
  decide +kernel

end Inquiry

end PlatformClient
