import PlatformClient.Call.Execution
import PlatformClient.Proofs.Runs

namespace PlatformClient

/-- What is told to those who watch: the indicator, the log, and those who want commands. -/
def Event.isNotice : Event → Bool
  | .progress _ => true
  | .log .. => true
  | .command _ => true
  | _ => false

/-- A step that only tells those who watch. -/
def Step.isNotice (step : Step) : Bool :=
  match step.effect with
  | .record event => event.isNotice
  | _ => false

namespace Program

variable {α β : Type}

/-- A program without the steps that only tell those who watch. The outcome of such a step
is known beforehand, so that it can be left out and the program still goes on. -/
def unwatched : Program α → Program α
  | .done value => .done value
  | .perform (.record event) next =>
    if event.isNotice then (next ()).unwatched
    else .perform (.record event) fun outcome => (next outcome).unwatched
  | .perform effect next => .perform effect fun outcome => (next outcome).unwatched

theorem unwatched_notice {event : Event} (notice : event.isNotice = true)
    (next : Unit → Program α) :
    (Program.perform (.record event) next).unwatched = (next ()).unwatched := if_pos notice

theorem unwatched_event {event : Event} (kept : event.isNotice = false)
    (next : Unit → Program α) :
    (Program.perform (.record event) next).unwatched =
      .perform (.record event) fun outcome => (next outcome).unwatched :=
  if_neg (Bool.eq_false_iff.mp kept)

theorem unwatched_bind (program : Program α) (next : α → Program β) :
    (program >>= next).unwatched = program.unwatched >>= fun value => (next value).unwatched := by
  induction program with
  | done value => rfl
  | perform effect rest ih =>
    cases effect with
    | record event =>
      cases notice : event.isNotice with
      | true =>
        rw [unwatched_notice notice]
        exact (unwatched_notice notice _).trans (ih ())
      | false =>
        rw [unwatched_event notice]
        exact (unwatched_event notice _).trans (congrArg (Program.perform _) (funext ih))
    | _ => exact congrArg (Program.perform _) (funext ih)

end Program

namespace Attempt

variable {ε ε' α β : Type}

def unwatched (attempt : Attempt ε α) : Attempt ε α := ExceptT.mk attempt.run.unwatched

theorem unwatched_lift (program : Program α) :
    unwatched (liftM program : Attempt ε α) = liftM program.unwatched :=
  congrArg ExceptT.mk (Program.unwatched_bind program _)

theorem unwatched_bind (attempt : Attempt ε α) (next : α → Attempt ε β) :
    unwatched (attempt >>= next) = attempt.unwatched >>= fun value => unwatched (next value) := by
  refine (Program.unwatched_bind attempt.run _).trans (congrArg _ (funext fun result => ?_))
  cases result <;> rfl

/-- Two attempts are the same when unwatched if their parts are. -/
theorem unwatched_congr {attempt other : Attempt ε α} {next otherNext : α → Attempt ε β}
    (first : attempt.unwatched = other.unwatched)
    (later : ∀ value, unwatched (next value) = unwatched (otherNext value)) :
    unwatched (attempt >>= next) = unwatched (other >>= otherNext) := by
  rw [unwatched_bind, unwatched_bind, first, funext later]

theorem unwatched_lift_congr {program other : Program α}
    (same : program.unwatched = other.unwatched) :
    unwatched (liftM program : Attempt ε α) = unwatched (liftM other) := by
  rw [unwatched_lift, unwatched_lift, same]

end Attempt

/-- A world of which nothing has been seen. -/
def World.unseen (world : World) : World := { world with events := [] }

namespace World

theorem deliver_unseen (world : World) (request : Http.Request) (steps : List RemoteStep) :
    (world.unseen.deliver request steps).1 = (world.deliver request steps).1 ∧
      (world.unseen.deliver request steps).2.unseen = (world.deliver request steps).2.unseen := by
  rcases steps with _ | ⟨_ | _, rest⟩ <;> exact ⟨rfl, rfl⟩

theorem send_unseen (world : World) (purpose : Purpose) (request : Http.Request) :
    (world.unseen.send purpose request).1 = (world.send purpose request).1 ∧
      (world.unseen.send purpose request).2.unseen = (world.send purpose request).2.unseen := by
  have same : world.unseen.remote = world.remote := rfl
  unfold send
  rw [same]
  cases world.remote with
  | unconnected => exact ⟨rfl, rfl⟩
  | script steps =>
    simp only []
    split
    · exact ⟨rfl, rfl⟩
    · split
      · exact ⟨rfl, rfl⟩
      · exact world.deliver_unseen request steps
  | arranged calls tokens => cases purpose <;> exact ⟨rfl, rfl⟩

theorem takeLogin_unseen (world : World) :
    world.unseen.takeLogin.1 = world.takeLogin.1 ∧
      world.unseen.takeLogin.2.unseen = world.takeLogin.2.unseen := by
  have same : world.unseen.logins = world.logins := rfl
  unfold takeLogin
  rw [same]
  rcases world.logins with _ | ⟨_ | _ | _, rest⟩ <;> exact ⟨rfl, rfl⟩

/-- What has been seen decides nothing. A world keeps it for those who look at it later. -/
theorem answer_unseen (world : World) (effect : Effect) :
    (world.unseen.answer effect).1 = (world.answer effect).1 ∧
      (world.unseen.answer effect).2.unseen = (world.answer effect).2.unseen := by
  cases effect with
  | send purpose request => exact world.send_unseen purpose request
  | askForToken => exact world.takeLogin_unseen
  | writeFile path content =>
    have same : world.unseen.files = world.files := rfl
    unfold answer
    simp only [same]
    cases world.files.write path content <;> exact ⟨rfl, rfl⟩
  | _ => exact ⟨rfl, rfl⟩

theorem answer_congr {world other : World} (same : other.unseen = world.unseen) (effect : Effect) :
    (other.answer effect).1 = (world.answer effect).1 ∧
      (other.answer effect).2.unseen = (world.answer effect).2.unseen := by
  have here := world.answer_unseen effect
  have there := other.answer_unseen effect
  rw [same] at there
  exact ⟨there.1.symm.trans here.1, there.2.symm.trans here.2⟩

/-- A program comes to the same and does the same, whether anyone watches or not. By
induction over its steps: those that are left out give nothing and change nothing that is
not forgotten. -/
theorem run_unwatched {α : Type} {world other : World} (same : other.unseen = world.unseen)
    (program : Program α) :
    (other.run program.unwatched).1 = (world.run program).1 ∧
      (other.run program.unwatched).2.unseen = (world.run program).2.unseen ∧
      other.steps program.unwatched = (world.steps program).filter (!·.isNotice) := by
  induction program generalizing world other with
  | done value => exact ⟨rfl, same, rfl⟩
  | perform effect next ih =>
    have step := answer_congr same effect
    have goesOn (kept : Step.isNotice ⟨effect, (world.answer effect).1⟩ = false) :
        (other.run (.perform effect fun outcome => (next outcome).unwatched)).1 =
            (world.run (.perform effect next)).1 ∧
          (other.run (.perform effect fun outcome => (next outcome).unwatched)).2.unseen =
            (world.run (.perform effect next)).2.unseen ∧
          other.steps (.perform effect fun outcome => (next outcome).unwatched) =
            (world.steps (.perform effect next)).filter (!·.isNotice) := by
      have later := ih (world.answer effect).1 step.2
      simp only [run, steps, step.1, List.filter_cons_of_pos, kept, Bool.not_false]
      exact ⟨later.1, later.2.1, congrArg _ later.2.2⟩
    cases effect with
    | record event =>
      cases notice : event.isNotice with
      | true =>
        have recorded : other.unseen = (world.record event).unseen := same
        have later := ih () recorded
        rw [Program.unwatched_notice notice]
        refine ⟨later.1, later.2.1, later.2.2.trans ?_⟩
        have told : Step.isNotice ⟨.record event, ()⟩ = true := notice
        exact (List.filter_cons_of_neg (by simp [told])).symm
      | false =>
        rw [Program.unwatched_event notice]
        exact goesOn notice
    | _ => exact goesOn rfl

end World

theorem Client.showCommand_unwatched (client : Client) (request : Http.Request) :
    (client.showCommand request).unwatched = pure () := by
  unfold showCommand
  cases client.commands <;> rfl

namespace Call

theorem indicate_unwatched (options : CallOptions) (event : ProgressEvent) :
    (indicate options event).unwatched = pure () := by
  unfold indicate
  cases options.quiet <;> rfl

theorem stopIndicator_unwatched (options : CallOptions) (ending : ProgressEnding) :
    (stopIndicator options ending).unwatched = pure () := indicate_unwatched options _

/-- What a call gives: the headers that the options keep, and its result. -/
def given (outcome : CallOptions × Except CallError Payload) :
    Option Http.Headers × Except CallError Payload := (outcome.1.responseHeaders, outcome.2)

theorem reject_unwatched (options otherOptions : CallOptions) (response : Http.Response) :
    (reject otherOptions response).unwatched = (reject options response).unwatched := by
  have failed : ∀ options : CallOptions, (reject options response).unwatched =
      throw (.status (.classify response.status response.body)) := by
    intro options
    unfold reject
    rw [Attempt.unwatched_bind, Attempt.unwatched_lift, stopIndicator_unwatched]
    cases options.expected.contains response.status <;> rfl
  rw [failed, failed]

section

variable {client other : Client} {options otherOptions : CallOptions}
  (login : other.login = client.login) (agent : other.userAgent = client.userAgent)
  (headers : otherOptions.headers = options.headers)

include agent headers

theorem exchange_unwatched (call : Call) (trial : Trial) :
    (exchange other call otherOptions trial).unwatched =
      (exchange client call options trial).unwatched := by
  unfold exchange
  rw [agent, headers]
  refine Attempt.unwatched_congr rfl fun context => ?_
  refine Attempt.unwatched_congr rfl fun request => ?_
  refine Attempt.unwatched_congr (Attempt.unwatched_lift_congr ?_) fun _ => ?_
  · rw [Client.showCommand_unwatched, Client.showCommand_unwatched]
  refine Attempt.unwatched_congr (Attempt.unwatched_lift_congr ?_) fun _ => ?_
  · rw [indicate_unwatched, indicate_unwatched]
  refine Attempt.unwatched_congr rfl fun reply => ?_
  cases responseOfReply request reply with
  | ok response => rfl
  | error error =>
    refine Attempt.unwatched_congr (Attempt.unwatched_lift_congr ?_) fun _ => rfl
    rw [stopIndicator_unwatched, stopIndicator_unwatched]

include login

/-- Neither the indicator nor what is shown or noted has to do with what comes back. Without
their steps the programs of two calls are literally the same. -/
theorem response_unwatched (call : Call) :
    (response other call otherOptions).unwatched = (response client call options).unwatched := by
  have stopped : ∀ ending : ProgressEnding, Attempt.unwatched
      (liftM (stopIndicator otherOptions ending) : Attempt CallError Unit) =
        Attempt.unwatched (liftM (stopIndicator options ending)) := by
    intro ending
    refine Attempt.unwatched_lift_congr ?_
    rw [stopIndicator_unwatched, stopIndicator_unwatched]
  have credential : other.ensureToken = client.ensureToken := by
    unfold Client.ensureToken Client.logIn
    rw [login, agent]
  have refresh : other.refreshToken = client.refreshToken := by
    unfold Client.refreshToken
    rw [login, agent]
  unfold response
  rw [credential, refresh]
  refine Attempt.unwatched_congr rfl fun _ => ?_
  refine Attempt.unwatched_congr (exchange_unwatched agent headers call _) fun first => ?_
  cases Transition.of .first first.status with
  | succeed => exact Attempt.unwatched_congr (stopped _) fun _ => rfl
  | fail => exact reject_unwatched options otherOptions first
  | refreshAndRetry =>
    refine Attempt.unwatched_congr (stopped _) fun _ => ?_
    refine Attempt.unwatched_congr rfl fun _ => ?_
    refine Attempt.unwatched_congr rfl fun _ => ?_
    refine Attempt.unwatched_congr (exchange_unwatched agent headers call _) fun second => ?_
    cases Transition.of .afterRefresh second.status with
    | succeed => exact Attempt.unwatched_congr (stopped _) fun _ => rfl
    | _ => exact reject_unwatched options otherOptions second

variable (kept : otherOptions.responseHeaders = options.responseHeaders)

include kept

theorem execute_unwatched (call : Call) :
    (given <$> execute other call otherOptions).unwatched =
      (given <$> execute client call options).unwatched := by
  have responses : (response other call otherOptions).run.unwatched =
      (response client call options).run.unwatched :=
    congrArg ExceptT.run (response_unwatched login agent headers call)
  unfold execute
  simp only [map_eq_pure_bind, bind_assoc, Program.unwatched_bind, responses]
  refine congrArg _ (funext fun _ => congrArg _ (funext fun result => ?_))
  cases result with
  | error error =>
    have same : given (otherOptions, .error error) = given (options, .error error) :=
      Prod.ext kept rfl
    exact congrArg Program.done same
  | ok received =>
    rw [headers]
    simp only [Program.unwatched_bind, bind_assoc]
    rfl

/-- A call comes to the same and does the same, whichever statuses are expected, and whether
or not the indicator is told and commands are shown. Both runs are that of the one program
which is left without these. -/
theorem run_execute_congr (world : World) (call : Call) :
    given (world.run (execute other call otherOptions)).1 =
        given (world.run (execute client call options)).1 ∧
      (world.run (execute other call otherOptions)).2.unseen =
        (world.run (execute client call options)).2.unseen ∧
      (world.steps (execute other call otherOptions)).filter (!·.isNotice) =
        (world.steps (execute client call options)).filter (!·.isNotice) := by
  have here := World.run_unwatched (Eq.refl world.unseen) (given <$> execute client call options)
  have there := World.run_unwatched (Eq.refl world.unseen) (given <$> execute other call otherOptions)
  rw [execute_unwatched login agent headers kept call] at there
  have result := there.1.symm.trans here.1
  have reached := there.2.1.symm.trans here.2.1
  have done := there.2.2.symm.trans here.2.2
  rw [World.run_map, World.run_map] at result reached
  rw [World.steps_map, World.steps_map] at done
  exact ⟨result, reached, done⟩

end

end Call

end PlatformClient
