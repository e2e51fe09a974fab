import PlatformClient.Proofs.Moments
import PlatformClient.Proofs.Observers
import PlatformClient.Proofs.Outcomes
import PlatformClient.Proofs.ResponseFiles

namespace PlatformClient

/-- How what a call gives is presented by a command. -/
inductive Presentation where
  /-- The document that is read from it. -/
  | document
  /-- Whatever it is, laid out as far as possible. -/
  | payload
  | nothing
  deriving DecidableEq, Repr

def Presentation.present : Presentation → Except CallError Payload → Command.Result
  | .document, result => Command.shown (result >>= Payload.decode)
  | .payload, result => (result.mapError .call).map Payload.format?
  | .nothing, result => (result.mapError .call).map fun _ => none

/-- The call for which a command stands. Two commands with the same plan do the same,
whatever they are called. -/
structure Plan where
  call : Call
  options : CallOptions
  presentation : Presentation

def Plan.run (client : Client) (plan : Plan) : Program Command.Result := do
  let (_, result) ← Call.execute client plan.call plan.options
  return plan.presentation.present result

/-- What is sent as the flags say, where the files are these. -/
def BodyFlags.contentIn (flags : BodyFlags) (files : Files) :
    Except InputError (Option CallBody) :=
  match flags.data, flags.dataFile with
  | some data, _ => (Command.bodyOf flags (Text.encode data)).map some
  | none, some path =>
    match files.read path with
    | .error fault => .error (.dataFile path fault)
    | .ok content => (Command.bodyOf flags content).map some
  | none, none => .ok none

/-- The plan with other statuses that are expected. -/
def Plan.expecting (statuses : List Http.Status) (plan : Plan) : Plan :=
  { plan with options := { plan.options with expected := statuses } }

/-- Flags of a call that are refused. -/
def CallFlags.Rejected (call : CallFlags) : Prop :=
  ∃ error, Command.readHeaders call.headers = .error error ∨
    Command.readStatuses call.expected = .error error

/-- A body that is refused, where the files are these. -/
def BodyFlags.Rejected (files : Files) (body : BodyFlags) : Prop :=
  ∃ error, body.contentIn files = .error error

/-- Steps that read files and do nothing else. -/
def OnlyReads (steps : List Step) : Prop := ∀ step ∈ steps, ∃ path, step.effect = .readFile path

theorem OnlyReads.isLocal {steps : List Step} (reads : OnlyReads steps) :
    ∀ step ∈ steps, step.effect.isLocal = true := by
  intro step member
  obtain ⟨path, same⟩ := reads step member
  rw [same]
  rfl

theorem onlyReads_nil : OnlyReads [] := List.forall_mem_nil _

namespace Command

def planGet (path : String) (accept : Option String) (options : CallOptions) : Plan :=
  match accept with
  | some type =>
    ⟨⟨.get, path, none⟩, { options with headers := options.headers.set "accept" type }, .payload⟩
  | none => ⟨⟨.get, path, none⟩, options, .document⟩

def planDelete (path : String) (options : CallOptions) : Plan :=
  ⟨⟨.delete, path, none⟩, options, .nothing⟩

/-- The options with the type of what is sent, where one is given. -/
def typed (type : Option String) (options : CallOptions) : CallOptions :=
  match type with
  | some type => { options with headers := options.headers.set "content-type" type }
  | none => options

def planSending (method : Http.Method) (path : String) (type : Option String)
    (options : CallOptions) : Option CallBody → Plan
  | some (.bytes content) =>
    ⟨⟨method, path, some (.bytes content)⟩, typed type options,
      if method = .post then .document else .payload⟩
  | body => ⟨⟨method, path, body⟩, options, .document⟩

/-- Reading the document behind a call is a way to present what it gives. -/
theorem decoded_shown (client : Client) (call : Call) (options : CallOptions) :
    (do let (_, result) ← Call.decoded client call options; return shown result) =
      Plan.run client ⟨call, options, .document⟩ := by
  simp only [Plan.run, Call.decoded, bind_assoc, pure_bind]
  rfl

theorem runGet_eq (client : Client) (path : String) (accept : Option String)
    (options : CallOptions) :
    runGet client path accept options = (planGet path accept options).run client := by
  cases accept with
  | some type => rfl
  | none => exact decoded_shown client _ options

theorem runDelete_eq (client : Client) (path : String) (options : CallOptions) :
    runDelete client path options = (planDelete path options).run client := by
  simp only [runDelete, planDelete, Plan.run, Call.delete, bind_assoc, pure_bind]
  refine congrArg _ (funext fun outcome => ?_)
  cases outcome.2 <;> rfl

/-- Bytes that are posted are answered with a document. -/
theorem runBytes_eq (client : Client) (method : Http.Method) (path : String) (content : Bytes)
    (type : Option String) (options : CallOptions) :
    runBytes client method path content type options =
      (planSending method path type options (some (.bytes content))).run client := by
  unfold runBytes planSending
  by_cases posted : method = .post
  · subst posted
    cases type <;> exact decoded_shown client _ _
  · simp only [if_neg posted]
    cases type <;> rfl

/-- What is sent is found first. -/
theorem runWithBody_eq (client : Client) (method : Http.Method) (path : String) (body : BodyFlags)
    (options : CallOptions) :
    runWithBody client method path body options = (do
      match ← (readBody body).run with
      | .error error => return .error (.input error)
      | .ok content => (planSending method path body.contentType options content).run client) := by
  unfold runWithBody
  refine congrArg _ (funext fun result => ?_)
  rcases result with error | _ | content | content
  · rfl
  · exact decoded_shown client _ options
  · exact decoded_shown client _ options
  · exact runBytes_eq client method path content body.contentType options

theorem readBody_run (flags : BodyFlags) :
    (readBody flags).run = match flags.data, flags.dataFile with
      | some data, _ => pure ((bodyOf flags (Text.encode data)).map some)
      | none, some path => Program.readFile path >>= fun
        | .error fault => pure (.error (.dataFile path fault))
        | .ok content => pure ((bodyOf flags content).map some)
      | none, none => pure (.ok none) := by
  have encoded : ∀ content, (do return some (← ExceptT.mk (pure (bodyOf flags content))) :
      Attempt InputError (Option CallBody)).run = pure ((bodyOf flags content).map some) := by
    intro content
    cases bodyOf flags content <;> rfl
  unfold readBody
  cases flags.data with
  | some data => exact encoded _
  | none =>
    cases flags.dataFile with
    | none => rfl
    | some path =>
      refine congrArg (Program.readFile path >>= ·) (funext fun result => ?_)
      cases result with
      | error fault => rfl
      | ok content => exact encoded content

/-- What is sent is found without changing anything. It is what the flags and the files say
at that moment. -/
theorem run_readBody (world : World) (flags : BodyFlags) :
    world.run (readBody flags).run = (flags.contentIn world.files, world) ∧
      OnlyReads (world.steps (readBody flags).run) := by
  rw [readBody_run, BodyFlags.contentIn]
  cases flags.data with
  | some data => exact ⟨rfl, onlyReads_nil⟩
  | none =>
    cases flags.dataFile with
    | none => exact ⟨rfl, onlyReads_nil⟩
    | some path =>
      have read : world.run (Program.readFile path) = (world.files.read path, world) := rfl
      have steps : OnlyReads (world.steps (Program.readFile path)) :=
        List.forall_mem_singleton.mpr ⟨path, rfl⟩
      rw [World.run_bind, World.steps_bind, read]
      dsimp only
      cases world.files.read path <;>
        exact ⟨rfl, List.forall_mem_append.mpr ⟨steps, onlyReads_nil⟩⟩

/-- The call for which a command stands that sends something. -/
def planWithBody (quiet : Bool) (now : Nat) (files : Files) (method : Http.Method) (path : String)
    (body : BodyFlags) (call : CallFlags) : Except OptionsError (Option Plan) := do
  let options ← callOptions call quiet now
  let content ← (body.contentIn files).mapError .input
  return some (planSending method path body.contentType options content)

/-- The call for which a command stands, if it stands for one and its input is accepted. -/
def plan? (quiet : Bool) (now : Nat) (files : Files) : Command → Except OptionsError (Option Plan)
  | .get path accept call => do return some (planGet path accept (← callOptions call quiet now))
  | .delete path call => do return some (planDelete path (← callOptions call quiet now))
  | .post path body call => planWithBody quiet now files .post path body call
  | .put path body call => planWithBody quiet now files .put path body call
  | .patch path body call => planWithBody quiet now files .patch path body call
  | .request method path body call => do
    planWithBody quiet now files (← (readMethod method).mapError .input) path body call
  | .login => return none

/-- The ways that a command can go in a world, by what it stands for. Input is refused
before anything but files has been touched, and behind that there is one call and its
presentation. -/
inductive Course (client : Client) (world : World) (program : Program (Option Result)) :
    Except OptionsError (Option Plan) → Prop
  | rejected {error : InputError}
      (run : world.run program = (some (.error (.input error)), world))
      (reads : OnlyReads (world.steps program)) :
      Course client world program (.error (.input error))
  | beyondClock (run : world.run program = (none, world)) :
      Course client world program (.error .beyondClock)
  | planned {plan : Plan} (reading : List Step)
      (run : (world.run program).1 = some (plan.presentation.present
        (world.run (Call.execute client plan.call plan.options)).1.2))
      (steps : world.steps program =
        reading ++ world.steps (Call.execute client plan.call plan.options))
      (reads : ∀ step ∈ reading, step.effect.isLocal = true) :
      Course client world program (.ok (some plan))
  | login {halt : Option (Halt LoginError)} {result : Result}
      (run : (world.run program).1 = some result)
      (steps : proceedings (world.steps program) = [.loginBegun, .loginEnded halt])
      (ends : match halt with
        | none => ∃ text, result = .ok (some text)
        | some (.failed error) => result = .error (.call (.login error))
        | some (.interrupted _) => result = .error .loginCancelled) :
      Course client world program (.ok none)

variable {client : Client} {world : World} {quiet : Bool} {now : Nat}

theorem run_plan (client : Client) (world : World) (plan : Plan) :
    world.run (plan.run client) = (plan.presentation.present
        (world.run (Call.execute client plan.call plan.options)).1.2,
      (world.run (Call.execute client plan.call plan.options)).2) ∧
    world.steps (plan.run client) = world.steps (Call.execute client plan.call plan.options) := by
  unfold Plan.run
  rw [World.run_bind, World.steps_bind]
  exact ⟨rfl, List.append_nil _⟩

theorem Course.of_plan (client : Client) (world : World) (plan : Plan) :
    Course client world (do return some (← plan.run client)) (.ok (some plan)) := by
  obtain ⟨run, steps⟩ := run_plan client world plan
  refine .planned [] ?_ ?_ (List.forall_mem_nil _)
  · rw [World.run_bind, run]
    rfl
  · rw [World.steps_bind, steps]
    exact List.append_nil _

/-- Once what is sent has been found, it is sent. -/
theorem Course.of_body (client : Client) (world : World) (method : Http.Method) (path : String)
    (body : BodyFlags) (options : CallOptions) :
    Course client world (do return some (← runWithBody client method path body options))
      (do return some (planSending method path body.contentType options
        (← (body.contentIn world.files).mapError .input))) := by
  obtain ⟨found, reading⟩ := run_readBody world body
  rw [runWithBody_eq]
  cases known : body.contentIn world.files with
  | error error =>
    rw [known] at found
    refine .rejected ?_ ?_
    · simp only [World.run_bind, found]
      rfl
    · simp only [World.steps_bind, found]
      exact List.forall_mem_append.mpr
        ⟨List.forall_mem_append.mpr ⟨reading, onlyReads_nil⟩, onlyReads_nil⟩
  | ok content =>
    rw [known] at found
    obtain ⟨run, steps⟩ := run_plan client world
      (planSending method path body.contentType options content)
    refine .planned (world.steps (readBody body).run) ?_ ?_ reading.isLocal
    · simp only [World.run_bind, found, run]
      rfl
    · simp only [World.steps_bind, World.run_bind, found, steps, List.append_assoc]
      exact congrArg _ (List.append_nil _)

/-- What is done with the options of a call, where they can be made. -/
theorem Course.of_options {call : CallFlags} {next : CallOptions → Program Result}
    {planned : CallOptions → Except OptionsError (Option Plan)}
    (later : ∀ options, Course client world (do return some (← next options)) (planned options)) :
    Course client world (withOptions call quiet now next) (callOptions call quiet now >>= planned) := by
  unfold withOptions
  cases callOptions call quiet now with
  | ok options => exact later options
  | error error =>
    cases error with
    | input error => exact .rejected rfl onlyReads_nil
    | beyondClock => exact .beyondClock rfl

theorem Course.of_login (client : Client) (world : World) :
    Course client world (do return some (← runLogin client)) (.ok none) := by
  have runs := world.runs_steps (runLogin client)
  have steps : world.steps (do return some (← runLogin client)) = world.steps (runLogin client) := by
    rw [World.steps_bind]
    exact List.append_nil _
  have result : (world.run (do return some (← runLogin client))).1 =
      some (world.run (runLogin client)).1 := by
    rw [World.run_bind]
    rfl
  generalize (world.run (runLogin client)).1 = final at runs result
  generalize world.steps (runLogin client) = taken at runs steps
  obtain ⟨first, ending, rest, rfl, login, later⟩ := Program.runs_bind_iff.mp runs
  obtain ⟨inner, asked, rfl⟩ := Attempt.runs_adapt_iff.mp login
  have order := (Call.LoginCourse.of_runs asked).proceedings_eq
  rcases inner with ⟨error | why⟩ | _
  · obtain ⟨rfl, rfl⟩ := Program.runs_pure_iff.mp later
    exact .login result (by rw [steps, List.append_nil, order]) rfl
  · obtain ⟨rfl, rfl⟩ := Program.runs_pure_iff.mp later
    exact .login result (by rw [steps, List.append_nil, order]) rfl
  -- Behind a login with success the profile is read, for what is shown.
  · obtain ⟨_, profile, _, rfl, read, done⟩ := Program.runs_bind_iff.mp later
    obtain rfl := Program.runs_step_iff.mp read
    obtain ⟨rfl, rfl⟩ := Program.runs_pure_iff.mp done
    have ended : proceedings (world.steps (do return some (← runLogin client))) =
        [.loginBegun, .loginEnded none] := by
      rw [steps, proceedings_append, order]
      rfl
    exact .login result ended ⟨_, rfl⟩

/-- Every command goes the way of what it stands for. The case of each command is one of the
two forms, with a body or without, and is settled by the course of that form. -/
theorem course (client : Client) (world : World) (quiet : Bool) (now : Nat) (command : Command) :
    Course client world (command.run client quiet now) (command.plan? quiet now world.files) := by
  have sending : ∀ method path body call,
      Course client world (withOptions call quiet now (runWithBody client method path body))
        (planWithBody quiet now world.files method path body call) := fun method path body call =>
    Course.of_options fun options => Course.of_body client world method path body options
  cases command with
  | get path accept call =>
    refine Course.of_options fun options => ?_
    rw [runGet_eq]
    exact Course.of_plan client world _
  | delete path call =>
    refine Course.of_options fun options => ?_
    rw [runDelete_eq]
    exact Course.of_plan client world _
  | post path body call => exact sending .post path body call
  | put path body call => exact sending .put path body call
  | patch path body call => exact sending .patch path body call
  | request method path body call =>
    rw [run, plan?]
    cases readMethod method with
    | error error => exact .rejected rfl onlyReads_nil
    | ok verb => exact sending verb path body call
  | login => exact Course.of_login client world

/-- A flag, a method or a body is refused. -/
def Rejected (files : Files) : Command → Prop
  | .get _ _ call => call.Rejected
  | .delete _ call => call.Rejected
  | .post _ body call => call.Rejected ∨ body.Rejected files
  | .put _ body call => call.Rejected ∨ body.Rejected files
  | .patch _ body call => call.Rejected ∨ body.Rejected files
  | .request method _ body call =>
    (∃ error, readMethod method = .error error) ∨ call.Rejected ∨ body.Rejected files
  | .login => False

/-- The clock can hold the end of a call. -/
def OnClock (now : Nat) (command : Command) : Prop :=
  ∀ call seconds, command.callFlags? = some call → call.timeout = some seconds →
    now + seconds < clockLimit

theorem callOptions_cases {call : CallFlags} {quiet : Bool} {now : Nat}
    (clock : ∀ seconds, call.timeout = some seconds → now + seconds < clockLimit) :
    (∃ error, callOptions call quiet now = .error (.input error) ∧ call.Rejected) ∨
      ∃ options, callOptions call quiet now = .ok options ∧ ¬ call.Rejected := by
  unfold callOptions CallFlags.Rejected
  cases readHeaders call.headers with
  | error error => exact Or.inl ⟨error, rfl, error, Or.inl rfl⟩
  | ok headers =>
    cases readStatuses call.expected with
    | error error => exact Or.inl ⟨error, rfl, error, Or.inr rfl⟩
    | ok expected =>
      refine Or.inr ?_
      have accepted : ¬ ∃ error, (.ok headers : Except InputError CallerHeaders) = .error error ∨
          (.ok expected : Except InputError (List Http.Status)) = .error error := by
        rintro ⟨error, same | same⟩ <;> cases same
      cases limit : call.timeout with
      | none => exact ⟨_, rfl, accepted⟩
      | some seconds =>
        have held : ¬ clockLimit ≤ now + seconds := Nat.not_le.mpr (clock seconds limit)
        simp only [Except.mapError, bind, Except.bind, if_neg held]
        exact ⟨_, rfl, accepted⟩

theorem planBare_cases {call : CallFlags} {quiet : Bool} {now : Nat} (planned : CallOptions → Plan)
    (clock : ∀ seconds, call.timeout = some seconds → now + seconds < clockLimit) :
    (∃ error, (do return some (planned (← callOptions call quiet now))) =
      (.error (.input error) : Except OptionsError (Option Plan)) ∧ call.Rejected) ∨
    ∃ plan, (do return some (planned (← callOptions call quiet now))) =
      (.ok (some plan) : Except OptionsError (Option Plan)) ∧ ¬ call.Rejected := by
  rcases callOptions_cases clock with ⟨error, known, rejected⟩ | ⟨options, known, accepted⟩
  · rw [known]
    exact Or.inl ⟨error, rfl, rejected⟩
  · rw [known]
    exact Or.inr ⟨_, rfl, accepted⟩

theorem planWithBody_cases {quiet : Bool} {now : Nat} (files : Files) (method : Http.Method)
    (path : String) (body : BodyFlags) {call : CallFlags}
    (clock : ∀ seconds, call.timeout = some seconds → now + seconds < clockLimit) :
    (∃ error, planWithBody quiet now files method path body call = .error (.input error) ∧
      (call.Rejected ∨ body.Rejected files)) ∨
    ∃ plan, planWithBody quiet now files method path body call = .ok (some plan) ∧
      ¬ (call.Rejected ∨ body.Rejected files) := by
  unfold planWithBody
  rcases callOptions_cases clock with ⟨error, known, rejected⟩ | ⟨options, known, accepted⟩
  · rw [known]
    exact Or.inl ⟨error, rfl, Or.inl rejected⟩
  · rw [known]
    cases content : body.contentIn files with
    | error error => exact Or.inl ⟨error, rfl, Or.inr ⟨error, content⟩⟩
    | ok content =>
      refine Or.inr ⟨_, rfl, ?_⟩
      rintro (rejected | ⟨error, failed⟩)
      · exact accepted rejected
      · rw [content] at failed
        cases failed

/-- A command is a login, or its input is refused, or it stands for a call. While the clock
can hold the end of the call, there is no other way. -/
theorem plan?_cases {quiet : Bool} {now : Nat} (files : Files) {command : Command}
    (clock : command.OnClock now) :
    (command = .login ∧ command.plan? quiet now files = .ok none) ∨
    (∃ error, command.plan? quiet now files = .error (.input error) ∧ command.Rejected files) ∨
    ∃ plan, command.plan? quiet now files = .ok (some plan) ∧ ¬ command.Rejected files := by
  cases command with
  | get path accept call =>
    exact Or.inr (planBare_cases (planGet path accept) (clock call · rfl))
  | delete path call => exact Or.inr (planBare_cases (planDelete path) (clock call · rfl))
  | post path body call => exact Or.inr (planWithBody_cases files _ path body (clock call · rfl))
  | put path body call => exact Or.inr (planWithBody_cases files _ path body (clock call · rfl))
  | patch path body call => exact Or.inr (planWithBody_cases files _ path body (clock call · rfl))
  | request method path body call =>
    refine Or.inr ?_
    rw [plan?, Rejected]
    cases known : readMethod method with
    | error error => exact Or.inl ⟨error, rfl, Or.inl ⟨error, rfl⟩⟩
    | ok verb =>
      have readable : ¬ ∃ error, (.ok verb : Except InputError Http.Method) = .error error := nofun
      rw [or_iff_right readable]
      exact planWithBody_cases files verb path body (clock call · rfl)
  | login => exact Or.inl ⟨rfl, rfl⟩

/-- The command with other statuses that are expected. -/
def expecting (codes : List Nat) : Command → Command
  | .get path accept call => .get path accept { call with expected := codes }
  | .delete path call => .delete path { call with expected := codes }
  | .post path body call => .post path body { call with expected := codes }
  | .put path body call => .put path body { call with expected := codes }
  | .patch path body call => .patch path body { call with expected := codes }
  | .request method path body call => .request method path body { call with expected := codes }
  | .login => .login

/-- The statuses that are expected can be read. -/
def ReadsExpected (command : Command) : Prop :=
  ∀ call, command.callFlags? = some call → ∃ statuses, readStatuses call.expected = .ok statuses

theorem callOptions_expecting {call : CallFlags} {quiet : Bool} {now : Nat} {codes : List Nat}
    {old statuses : List Http.Status} (readable : readStatuses call.expected = .ok old)
    (read : readStatuses codes = .ok statuses) :
    callOptions { call with expected := codes } quiet now =
      (callOptions call quiet now).map fun options => { options with expected := statuses } := by
  simp only [callOptions, readable, read]
  cases readHeaders call.headers with
  | error error => rfl
  | ok headers =>
    cases call.timeout with
    | none => cases call.output <;> rfl
    | some seconds =>
      simp only [Except.mapError, bind, Except.bind]
      split
      · rfl
      · cases call.output <;> rfl

theorem planSending_expecting (statuses : List Http.Status) (method : Http.Method) (path : String)
    (type : Option String) (options : CallOptions) (content : Option CallBody) :
    planSending method path type { options with expected := statuses } content =
      (planSending method path type options content).expecting statuses := by
  rcases content with _ | _ | _
  · rfl
  · rfl
  · cases type <;> rfl

theorem planWithBody_expecting {quiet : Bool} {now : Nat} {files : Files} {method : Http.Method}
    {path : String} {body : BodyFlags} {call : CallFlags} {codes : List Nat}
    {old statuses : List Http.Status} (readable : readStatuses call.expected = .ok old)
    (read : readStatuses codes = .ok statuses) :
    planWithBody quiet now files method path body { call with expected := codes } =
      (planWithBody quiet now files method path body call).map
        (·.map (Plan.expecting statuses)) := by
  simp only [planWithBody, callOptions_expecting readable read]
  cases callOptions call quiet now with
  | error error => rfl
  | ok options =>
    cases body.contentIn files with
    | error error => rfl
    | ok content =>
      exact congrArg (Except.ok ∘ some) (planSending_expecting statuses method path _ options content)

/-- The same call is made, whatever failures are expected. -/
theorem plan?_expecting {quiet : Bool} {now : Nat} {files : Files} {command : Command}
    {codes : List Nat} {statuses : List Http.Status} (reads : command.ReadsExpected)
    (read : readStatuses codes = .ok statuses) :
    (command.expecting codes).plan? quiet now files =
      (command.plan? quiet now files).map (·.map (Plan.expecting statuses)) := by
  cases command with
  | get path accept call =>
    obtain ⟨old, readable⟩ := reads call rfl
    simp only [expecting, plan?, callOptions_expecting readable read]
    cases callOptions call quiet now <;> cases accept <;> rfl
  | delete path call =>
    obtain ⟨old, readable⟩ := reads call rfl
    simp only [expecting, plan?, callOptions_expecting readable read]
    cases callOptions call quiet now <;> rfl
  | post path body call =>
    obtain ⟨old, readable⟩ := reads call rfl
    exact planWithBody_expecting readable read
  | put path body call =>
    obtain ⟨old, readable⟩ := reads call rfl
    exact planWithBody_expecting readable read
  | patch path body call =>
    obtain ⟨old, readable⟩ := reads call rfl
    exact planWithBody_expecting readable read
  | request method path body call =>
    obtain ⟨old, readable⟩ := reads call rfl
    simp only [expecting, plan?, planWithBody_expecting readable read]
    cases readMethod method <;> rfl
  | login => rfl

theorem planWithBody_ne_none {quiet : Bool} {now : Nat} {files : Files} {method : Http.Method}
    {path : String} {body : BodyFlags} {call : CallFlags} :
    planWithBody quiet now files method path body call ≠ .ok none := by
  intro known
  obtain ⟨options, -, known⟩ := bind_eq_ok_iff.mp known
  obtain ⟨content, -, known⟩ := bind_eq_ok_iff.mp known
  cases known

/-- Only a login stands for no call. -/
theorem eq_login_of_plan? {quiet : Bool} {now : Nat} {files : Files} {command : Command}
    (known : command.plan? quiet now files = .ok none) : command = .login := by
  cases command with
  | get path accept call =>
    obtain ⟨options, -, known⟩ := bind_eq_ok_iff.mp known
    cases known
  | delete path call =>
    obtain ⟨options, -, known⟩ := bind_eq_ok_iff.mp known
    cases known
  | request method path body call =>
    obtain ⟨verb, -, known⟩ := bind_eq_ok_iff.mp known
    exact absurd known planWithBody_ne_none
  | login => rfl
  | _ => exact absurd known planWithBody_ne_none

/-- What a command comes to does not depend on the failures that are expected. They are
looked at only to choose the level of a note in the log. -/
theorem run_expecting {client : Client} {world : World} {quiet : Bool} {now : Nat}
    {command : Command} {codes : List Nat} (reads : command.ReadsExpected)
    (others : (command.expecting codes).ReadsExpected) :
    (world.run ((command.expecting codes).run client quiet now)).1 =
      (world.run (command.run client quiet now)).1 := by
  by_cases login : command = .login
  · rw [login]
    rfl
  · obtain ⟨statuses, read⟩ : ∃ statuses, readStatuses codes = .ok statuses := by
      cases command with
      | login => exact absurd rfl login
      | _ => exact others _ rfl
    have here := command.course client world quiet now
    have there := (command.expecting codes).course client world quiet now
    rw [plan?_expecting reads read] at there
    generalize known : command.plan? quiet now world.files = planned at here there
    cases here with
    | rejected run reads =>
      cases there with
      | rejected again reads => rw [run, again]
    | beyondClock run =>
      cases there with
      | beyondClock again => rw [run, again]
    | @planned plan reading run steps reads =>
      cases there with
      | planned _ again _ _ =>
        have given : Call.given (world.run (Call.execute client plan.call
            (plan.expecting statuses).options)).1 =
              Call.given (world.run (Call.execute client plan.call plan.options)).1 :=
          (Call.run_execute_congr rfl rfl (by rfl) (by rfl) world plan.call).1
        have same : (world.run (Call.execute client plan.call
            (plan.expecting statuses).options)).1.2 =
              (world.run (Call.execute client plan.call plan.options)).1.2 :=
          (Prod.mk.inj given).2
        rw [run, again, ← same]
        rfl
    | login run steps ends => exact absurd (eq_login_of_plan? known) login

end Command

end PlatformClient
