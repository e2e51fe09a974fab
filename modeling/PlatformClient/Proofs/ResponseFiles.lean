import PlatformClient.Command.Execution
import PlatformClient.Proofs.FileTrees
import PlatformClient.Proofs.Sharing

namespace PlatformClient

namespace CallerHeaders

theorem lookup_replace (headers : CallerHeaders) (name value other : String) :
    (headers.map fun header => if header.1 = name then (name, value) else header).lookup other =
      if other = name then (headers.lookup name).map fun _ => value else headers.lookup other := by
  induction headers with
  | nil => split_ifs <;> rfl
  | cons header headers ih =>
    obtain ⟨first, old⟩ := header
    rw [List.map_cons, lookup_cons_ite]
    by_cases replaced : first = name
    · rw [if_pos replaced, lookup_cons_ite, ih, replaced, lookup_cons_ite, if_pos rfl]
      split_ifs <;> rfl
    · rw [if_neg replaced, lookup_cons_ite, ih, lookup_cons_ite, if_neg (Ne.symm replaced)]
      by_cases same : other = name
      · rw [if_pos same, same, if_neg (Ne.symm replaced), if_pos rfl]
      · rw [if_neg same, if_neg same]

theorem get?_set (headers : CallerHeaders) (name value other : String) :
    (headers.set name value).get? other =
      if other = name then some value else headers.get? other := by
  unfold set get?
  split_ifs with known same same
  · rw [lookup_replace, if_pos same]
    obtain ⟨header, member, equal⟩ := List.any_eq_true.mp known
    cases found : headers.lookup name with
    | some _ => rfl
    | none =>
      have other := List.lookup_eq_none_iff.mp found header member
      simp [beq_iff_eq.mp equal] at other
  · rw [lookup_replace, if_neg same]
  · have new : headers.lookup name = none := by
      refine List.lookup_eq_none_iff.mpr fun header member => ?_
      refine bne_iff_ne.mpr fun equal => known (List.any_eq_true.mpr ⟨header, member, ?_⟩)
      exact beq_iff_eq.mpr equal.symm
    simp [List.lookup_append, same, new]
  · simp [List.lookup_append, List.lookup_cons, beq_false_of_ne same]

end CallerHeaders

/-- The name under which a response that is a file is saved: the one for the output, else
the one that is given as a header. Both end up in the same header of the options, and the
output is put there last. -/
def CallFlags.saveName? (call : CallFlags) : Option String :=
  match call.output with
  | some fileName => some fileName
  | none => (Command.readHeaders call.headers).toOption.bind (·.get? fileNameHeader)

namespace Command

def callFlags? : Command → Option CallFlags
  | .get _ _ call => some call
  | .delete _ call => some call
  | .post _ _ call => some call
  | .put _ _ call => some call
  | .patch _ _ call => some call
  | .request _ _ _ call => some call
  | .login => none

def saveName? (command : Command) : Option String := command.callFlags?.bind (·.saveName?)

/-- The options of a call are what its flags say, each of them read for itself. -/
theorem parts_of_callOptions {call : CallFlags} {quiet : Bool} {now : Nat}
    {options : CallOptions} (known : callOptions call quiet now = .ok options) :
    ∃ headers expected, readHeaders call.headers = .ok headers ∧
      readStatuses call.expected = .ok expected ∧ options =
        { headers := match call.output with
            | some fileName => headers.set fileNameHeader fileName
            | none => headers
          expected, quiet, cancellable := true, timeLimit := call.timeout } := by
  rw [callOptions, bind_eq_ok_iff] at known
  obtain ⟨headers, read, known⟩ := known
  obtain ⟨expected, statuses, known⟩ := bind_eq_ok_iff.mp known
  refine ⟨headers, expected, mapError_eq_ok_iff.mp read, mapError_eq_ok_iff.mp statuses, ?_⟩
  dsimp only at known
  split at known
  · rename_i unlimited
    rw [← Except.ok.inj known, unlimited]
    cases call.output <;> rfl
  · rename_i seconds limited
    split_ifs at known
    rw [← Except.ok.inj known, limited]
    cases call.output <;> rfl

/-- The headers of a call are those that are given, and the name for the output. -/
theorem headers_of_callOptions {call : CallFlags} {quiet : Bool} {now : Nat}
    {options : CallOptions} (known : callOptions call quiet now = .ok options) :
    ∃ headers, readHeaders call.headers = .ok headers ∧ options.headers = match call.output with
      | some fileName => headers.set fileNameHeader fileName
      | none => headers := by
  obtain ⟨headers, expected, read, -, rfl⟩ := parts_of_callOptions known
  exact ⟨headers, read, rfl⟩

theorem saveName?_of_callOptions {call : CallFlags} {quiet : Bool} {now : Nat}
    {options : CallOptions} (known : callOptions call quiet now = .ok options) :
    options.headers.get? fileNameHeader = call.saveName? := by
  obtain ⟨headers, read, named⟩ := headers_of_callOptions known
  rw [named, CallFlags.saveName?, read]
  cases call.output with
  | none => rfl
  | some fileName => exact (headers.get?_set _ _ _).trans (if_pos rfl)

end Command

/-- A step that writes no file but one of this name. Reading is not restricted, so that a
body can come from any file. -/
def Effect.SavesOnly (name : Option String) : Effect → Prop
  | .writeFile path _ => name = some path
  | _ => True

namespace Attempt

theorem uses_adapt {ε ε' α : Type} {allowed : Effect → Prop} {attempt : Attempt ε α}
    (uses : attempt.run.Uses allowed) (translate : ε → ε') :
    (attempt.adapt translate).run.Uses allowed := by
  change (Except.mapError translate <$> attempt.run).Uses allowed
  rw [map_eq_pure_bind]
  exact uses.bind fun result => .done _

end Attempt

section Writing

variable {name : Option String}

theorem Login.serviceLogin_saves (userAgent : Option Bytes) :
    (serviceLogin userAgent).run.Uses (Effect.SavesOnly name) := by
  unfold serviceLogin
  refine Attempt.uses_bind (Attempt.uses_lift (Program.uses_step trivial)) fun profile => ?_
  refine Attempt.uses_bind (Attempt.uses_result _) fun credentials => ?_
  refine Attempt.uses_bind (Attempt.uses_result _) fun url => ?_
  refine Attempt.uses_bind (Attempt.uses_lift (Program.uses_step trivial)) fun reply => ?_
  refine Attempt.uses_bind (Attempt.uses_result _) fun token => ?_
  refine Attempt.uses_bind (Attempt.uses_lift (Program.uses_step trivial)) fun _ => ?_
  exact Attempt.uses_lift (Program.uses_step trivial)

theorem Login.profileLogin_saves (userAgent : Option Bytes) :
    (profileLogin userAgent).run.Uses (Effect.SavesOnly name) := by
  unfold profileLogin
  refine Attempt.uses_bind (Attempt.uses_lift (Program.uses_step trivial)) fun profile => ?_
  refine Attempt.uses_bind (Attempt.uses_lift (Program.uses_step trivial)) fun _ => ?_
  cases profile.authMethod with
  | servicePrincipal => exact serviceLogin_saves userAgent
  | _ => exact Attempt.uses_result _

/-- A client that writes no files when it logs in. -/
def Client.LogsInOnly (client : Client) (name : Option String) : Prop :=
  (client.login.program client.userAgent).run.Uses (Effect.SavesOnly name)

variable {client : Client} (login : client.LogsInOnly name)

include login

theorem Client.login_saves : (client.login.run client.userAgent).run.Uses (Effect.SavesOnly name) :=
  (Program.uses_step trivial).bind fun _ => login.bind fun result =>
    (Program.uses_step trivial).bind fun _ => .done result

theorem Client.logIn_saves : client.logIn.run.Uses (Effect.SavesOnly name) :=
  Attempt.uses_adapt (Client.login_saves login) _

theorem Client.ensureToken_saves : client.ensureToken.run.Uses (Effect.SavesOnly name) := by
  unfold ensureToken
  refine Attempt.uses_bind (Attempt.uses_lift (Program.uses_step trivial)) fun profile => ?_
  cases profile.hasToken with
  | true => exact Attempt.uses_result (.ok ())
  | false =>
    refine Attempt.uses_bind (Attempt.uses_lift (Program.uses_step trivial)) fun _ => ?_
    exact Client.logIn_saves login

theorem Client.refreshToken_saves : client.refreshToken.run.Uses (Effect.SavesOnly name) := by
  unfold refreshToken
  refine Attempt.uses_bind (Attempt.uses_lift (Program.uses_step trivial)) fun _ => ?_
  exact Attempt.uses_adapt (Client.login_saves login) _

omit login in
theorem Client.showCommand_saves (client : Client) (request : Http.Request) :
    (client.showCommand request).Uses (Effect.SavesOnly name) := by
  unfold showCommand
  cases client.commands with
  | off => exact .done ()
  | handed => exact Program.uses_step trivial
  | logged => exact (Program.uses_step trivial).bind fun _ => Program.uses_step trivial

namespace Call

omit login in
theorem indicate_saves (options : CallOptions) (event : ProgressEvent) :
    (indicate options event).Uses (Effect.SavesOnly name) := by
  unfold indicate
  cases options.quiet with
  | true => exact .done ()
  | false => exact Program.uses_step trivial

omit login in
theorem exchange_saves (client : Client) (call : Call) (options : CallOptions) (trial : Trial) :
    (exchange client call options trial).run.Uses (Effect.SavesOnly name) := by
  unfold exchange Client.context
  refine Attempt.uses_bind ?_ fun context => ?_
  · refine Attempt.uses_bind (Attempt.uses_lift (Program.uses_step trivial)) fun profile => ?_
    exact Attempt.uses_result _
  refine Attempt.uses_bind (Attempt.uses_result _) fun request => ?_
  refine Attempt.uses_bind (Attempt.uses_lift (client.showCommand_saves request)) fun _ => ?_
  refine Attempt.uses_bind (Attempt.uses_lift (indicate_saves options _)) fun _ => ?_
  refine Attempt.uses_bind (Attempt.uses_lift (Program.uses_step trivial)) fun reply => ?_
  cases responseOfReply request reply with
  | ok response => exact Attempt.uses_result (.ok response)
  | error error =>
    refine Attempt.uses_bind (Attempt.uses_lift (indicate_saves options _)) fun _ => ?_
    exact Attempt.uses_result (.error error)

omit login in
theorem reject_saves (options : CallOptions) (response : Http.Response) :
    (reject options response).run.Uses (Effect.SavesOnly name) := by
  unfold reject
  refine Attempt.uses_bind (Attempt.uses_lift (indicate_saves options _)) fun _ => ?_
  cases options.expected.contains response.status <;>
    exact Attempt.uses_bind (Attempt.uses_lift (Program.uses_step trivial)) fun _ =>
      Attempt.uses_result (.error _)

omit login in
theorem accept_saves (options : CallOptions) (response : Http.Response) :
    (do stopIndicator options (.finished true); return response :
      Attempt CallError Http.Response).run.Uses (Effect.SavesOnly name) :=
  Attempt.uses_bind (Attempt.uses_lift (indicate_saves options _)) fun _ =>
    Attempt.uses_result (.ok response)

theorem response_saves (call : Call) (options : CallOptions) :
    (response client call options).run.Uses (Effect.SavesOnly name) := by
  unfold response
  refine Attempt.uses_bind (Attempt.uses_adapt (Client.ensureToken_saves login) _) fun _ => ?_
  refine Attempt.uses_bind (exchange_saves client call options .first) fun first => ?_
  cases Transition.of .first first.status with
  | succeed => exact accept_saves options first
  | fail => exact reject_saves options first
  | refreshAndRetry =>
    refine Attempt.uses_bind (Attempt.uses_lift (indicate_saves options _)) fun _ => ?_
    refine Attempt.uses_bind (Attempt.uses_adapt (Client.refreshToken_saves login) _) fun _ => ?_
    refine Attempt.uses_bind (Attempt.uses_lift (Program.uses_step trivial)) fun _ => ?_
    refine Attempt.uses_bind (exchange_saves client call options .afterRefresh) fun second => ?_
    cases Transition.of .afterRefresh second.status with
    | succeed => exact accept_saves options second
    | _ => exact reject_saves options second

omit login in
/-- A payload is written under the name that is given for it. Nothing else of a response
reaches the files: what it says of itself never chooses a name. -/
theorem ofResponse_saves (method : Http.Method) (headers : CallerHeaders)
    (response : Http.Response) :
    (Payload.ofResponse method headers response).run.Uses
      (Effect.SavesOnly (headers.get? fileNameHeader)) := by
  unfold Payload.ofResponse
  cases handling : Payload.handling method headers response with
  | pass payload => exact Attempt.uses_result (.ok payload)
  | refuse misuse => exact Attempt.uses_result (.error _)
  | save path =>
    have named : headers.get? fileNameHeader = some path := by
      unfold Payload.handling at handling
      dsimp only at handling
      split_ifs at handling
      split at handling
      · rename_i known
        cases handling
        exact (Option.filter_eq_some_iff.mp known).1
      · cases handling
    refine Attempt.uses_bind (Attempt.uses_lift (Program.uses_step named)) fun result => ?_
    cases result with
    | error fault => exact Attempt.uses_result (.error _)
    | ok _ =>
      refine Attempt.uses_bind (Attempt.uses_lift (Program.uses_step trivial)) fun _ => ?_
      exact Attempt.uses_result (.ok _)

variable {options : CallOptions} (named : options.headers.get? fileNameHeader = name)

include named

theorem execute_saves (call : Call) :
    (execute client call options).Uses (Effect.SavesOnly name) := by
  unfold execute
  refine (Program.uses_step trivial).bind fun _ => ?_
  refine (response_saves login call options).bind fun result => ?_
  cases result with
  | error error => exact .done _
  | ok received =>
    rw [← named]
    exact (ofResponse_saves call.method options.headers received).bind fun payload => .done _

theorem decoded_saves (call : Call) :
    (decoded client call options).Uses (Effect.SavesOnly name) :=
  (execute_saves login named call).bind fun _ => .done _

theorem document_saves (method : Http.Method) (path : String)
    (body : Option (Except String Json)) :
    (document client method path body options).Uses (Effect.SavesOnly name) := by
  unfold document
  cases body with
  | none => exact decoded_saves login named _
  | some body =>
    cases body with
    | ok value => exact decoded_saves login named _
    | error why => exact .done _

end Call

namespace Command

variable {options : CallOptions} (named : options.headers.get? fileNameHeader = name)

include named

omit login in
/-- The headers for types leave the name for the response as it is. -/
theorem saveName_set {header : String} (other : fileNameHeader ≠ header) (type : String) :
    (options.headers.set header type).get? fileNameHeader = name := by
  rw [CallerHeaders.get?_set, if_neg other, named]

theorem runGet_saves (path : String) (accept : Option String) :
    (runGet client path accept options).Uses (Effect.SavesOnly name) := by
  unfold runGet
  cases accept with
  | some type =>
    exact (Call.execute_saves login (saveName_set named (by decide) type) _).bind fun _ => .done _
  | none => exact (Call.document_saves login named _ _ _).bind fun _ => .done _

theorem runDelete_saves (path : String) :
    (runDelete client path options).Uses (Effect.SavesOnly name) := by
  unfold runDelete Call.delete
  exact ((Call.execute_saves login named _).bind fun _ => .done _).bind fun _ => .done _

theorem runBytes_saves (method : Http.Method) (path : String) (content : Bytes)
    (type : Option String) :
    (runBytes client method path content type options).Uses (Effect.SavesOnly name) := by
  have typed : (match type with
      | some type => { options with headers := options.headers.set "content-type" type }
      | none => options).headers.get? fileNameHeader = name := by
    cases type with
    | none => exact named
    | some type => exact saveName_set named (by decide) type
  unfold runBytes
  dsimp only
  split_ifs
  · exact (Call.decoded_saves login typed _).bind fun _ => .done _
  · exact (Call.execute_saves login typed _).bind fun _ => .done _

theorem runWithBody_saves (method : Http.Method) (path : String) (body : BodyFlags) :
    (runWithBody client method path body options).Uses (Effect.SavesOnly name) := by
  have reading : (readBody body).run.Uses (Effect.SavesOnly name) := by
    unfold readBody
    split
    · exact Attempt.uses_bind (Attempt.uses_result _) fun _ => Attempt.uses_result (.ok _)
    · refine Attempt.uses_bind (Attempt.uses_lift (Program.uses_step trivial)) fun result => ?_
      cases result with
      | error fault => exact Attempt.uses_result (.error _)
      | ok content =>
        exact Attempt.uses_bind (Attempt.uses_result _) fun _ => Attempt.uses_result (.ok _)
    · exact Attempt.uses_result (.ok none)
  unfold runWithBody
  refine reading.bind fun result => ?_
  split
  · exact .done _
  · exact runBytes_saves login named _ _ _ _
  · exact (Call.document_saves login named _ _ _).bind fun _ => .done _
  · exact (Call.document_saves login named _ _ _).bind fun _ => .done _

omit named in
theorem runLogin_saves : (runLogin client).Uses (Effect.SavesOnly name) := by
  unfold runLogin
  refine (Client.logIn_saves login).bind fun result => ?_
  split
  · exact .done _
  · exact .done _
  · exact (Program.uses_step trivial).bind fun _ => .done _

end Command

end Writing

namespace Command

theorem withOptions_saves {call : CallFlags} {next : CallOptions → Program Result}
    (saves : ∀ options : CallOptions, options.headers.get? fileNameHeader = call.saveName? →
      (next options).Uses (Effect.SavesOnly call.saveName?)) (quiet : Bool) (now : Nat) :
    (withOptions call quiet now next).Uses (Effect.SavesOnly call.saveName?) := by
  unfold withOptions
  split
  · rename_i options known
    exact (saves options (saveName?_of_callOptions known)).bind fun _ => .done _
  · exact .done _
  · exact .done _

/-- A command writes no file but the one that it is to save a response in. Of what a command
does only the handling of its response writes at all. -/
theorem run_saves {client : Client} {command : Command}
    (login : client.LogsInOnly command.saveName?) (quiet : Bool) (now : Nat) :
    (command.run client quiet now).Uses (Effect.SavesOnly command.saveName?) := by
  cases command with
  | get path accept call =>
    exact withOptions_saves (fun _ named => runGet_saves login named path accept) quiet now
  | delete path call =>
    exact withOptions_saves (fun _ named => runDelete_saves login named path) quiet now
  | post path body call =>
    exact withOptions_saves (fun _ named => runWithBody_saves login named .post path body) quiet now
  | put path body call =>
    exact withOptions_saves (fun _ named => runWithBody_saves login named .put path body) quiet now
  | patch path body call =>
    exact withOptions_saves (fun _ named => runWithBody_saves login named .patch path body) quiet now
  | request method path body call =>
    rw [run]
    cases readMethod method with
    | error error => exact .done _
    | ok verb =>
      exact withOptions_saves (fun _ named => runWithBody_saves login named verb path body) quiet now
  | login => exact (runLogin_saves login).bind fun _ => .done _

end Command

/-- Files that differ at most at the place to which a name leads. The place is that of the
files before, which is where the name leads after any number of writes. -/
structure Files.SavedUnder (name : Option String) (files after : Files) : Prop where
  start : after.workingDirectory = files.workingDirectory
  entries : ∀ location, after.entry? location = files.entry? location ∨
    ∃ path content, name = some path ∧ files.Names path location ∧
      after.entry? location = some (.file content)

namespace Files.SavedUnder

variable {name : Option String} {files after : Files}

theorem refl (files : Files) : files.SavedUnder name files := ⟨rfl, fun _ => Or.inl rfl⟩

theorem keepsDirectories (saved : files.SavedUnder name after) : files.KeepsDirectories after := by
  refine ⟨saved.start, fun location directory => ?_⟩
  rcases saved.entries location with same | ⟨path, content, -, names, -⟩
  · rw [same, directory]
  · exact absurd directory names.2

theorem keepsDirectories_back (saved : files.SavedUnder name after) :
    after.KeepsDirectories files := by
  refine ⟨saved.start.symm, fun location directory => ?_⟩
  rcases saved.entries location with same | ⟨path, content, -, -, file⟩
  · rw [← same, directory]
  · rw [file] at directory
    cases directory

/-- A name leads to the same place all the time. -/
theorem write {path : String} {content : Bytes} {written : Files}
    (saved : files.SavedUnder (some path) after)
    (success : after.write path content = .ok written) :
    files.SavedUnder (some path) written := by
  obtain ⟨place, names, rfl⟩ := names_of_write success
  have before : files.Names path place :=
    names.kept saved.keepsDirectories_back fun directory =>
      names.2 (saved.keepsDirectories.stays _ directory)
  refine ⟨saved.start, fun location => ?_⟩
  rw [entryAt_put names.inner]
  split_ifs with same
  · exact Or.inr ⟨path, content, rfl, same ▸ before, rfl⟩
  · exact saved.entries location

/-- A file elsewhere is still there, with the content that it had. -/
theorem elsewhere (saved : files.SavedUnder name after) {location : Location}
    (other : ∀ path, name = some path → ¬ files.Names path location) :
    after.entry? location = files.entry? location := by
  rcases saved.entries location with same | ⟨path, content, named, names, -⟩
  · exact same
  · exact absurd names (other path named)

end Files.SavedUnder

namespace World

theorem answer_saves {name : Option String} {files : Files} {world : World} {effect : Effect}
    (saves : effect.SavesOnly name) (saved : files.SavedUnder name world.files) :
    files.SavedUnder name (world.answer effect).2.files := by
  cases spares : effect.sparesFiles with
  | true => rwa [world.answer_files spares]
  | false =>
    cases effect with
    | writeFile path content =>
      obtain rfl : name = some path := saves
      rw [answer_writeFile]
      cases written : world.files.write path content with
      | error fault => exact saved
      | ok files => exact saved.write written
    | _ => cases spares

/-- A program that writes under one name only changes nothing elsewhere. The name leads to
the same place after each write as before it. -/
theorem run_saves {α : Type} {name : Option String} {files : Files} {world : World}
    {program : Program α} (saves : program.Uses (Effect.SavesOnly name))
    (saved : files.SavedUnder name world.files) :
    files.SavedUnder name (world.run program).2.files := by
  induction saves generalizing world with
  | done value => exact saved
  | perform kind _ ih => exact ih _ (answer_saves kind saved)

/-- Where the clock cannot hold the end of a call, nothing is done. The options of a call
are read before anything else. -/
theorem eq_pure_of_beyondClock {client : Client} {quiet : Bool} {now : Nat} {command : Command}
    {world : World} (absent : (world.run (command.run client quiet now)).1 = none) :
    command.run client quiet now = pure none := by
  have done {next : CallOptions → Program Command.Result} {call : CallFlags}
      (absent : (world.run (Command.withOptions call quiet now next)).1 = none) :
      Command.withOptions call quiet now next = pure none := by
    unfold Command.withOptions at absent ⊢
    split at absent
    · rw [run_bind] at absent
      cases absent
    · cases absent
    · rfl
  cases command with
  | request method path body call =>
    rw [Command.run] at absent ⊢
    split at absent
    · cases absent
    · exact done absent
  | login =>
    rw [Command.run, run_bind] at absent
    cases absent
  | _ => exact done absent

/-- Only the token of the profile ever changes. By induction over the steps of the program,
of which storing a token is the only one that touches the profile. -/
theorem run_profile {α : Type} (world : World) (program : Program α) :
    (world.run program).2.profile =
      { world.profile with token := (world.run program).2.profile.token } := by
  induction program generalizing world with
  | done value => rfl
  | perform effect next ih =>
    have step := world.answer_leave effect
    have later := ih (world.answer effect).1 (world.answer effect).2
    rw [step] at later
    refine later.trans ?_
    cases effect <;> rfl

end World

end PlatformClient
