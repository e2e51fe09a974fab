import PlatformClient.Launch
import PlatformClient.Proofs.CommandPlans
import PlatformClient.Proofs.RetryProtocol
import PlatformClient.Proofs.TextParts

namespace PlatformClient

namespace Http.Method

/-- A text is the name of a method, in whatever case its letters are. -/
def Spelled (method : Method) (text : String) : Prop :=
  text.toList.map Char.toLower = method.name.toList.map Char.toLower

instance (method : Method) (text : String) : Decidable (method.Spelled text) :=
  inferInstanceAs (Decidable (_ = _))

/-- The methods that have commands of their own. -/
def verbs : List Method := [get, delete, post, put, patch]

theorem ofString?_verb {verb : Method} (known : verb ∈ verbs) :
    ofString? verb.name = some verb ∧ verb.name.toList.map Char.toUpper = verb.name.toList := by
  revert verb
  decide

theorem name_of_ofString? {text : String} {method : Method} (read : ofString? text = some method) :
    method.name = text := by
  unfold ofString? at read
  split at read
  · cases read
    rfl
  · cases read

end Http.Method

/-- Nothing to send is given. -/
def BodyFlags.Bodiless (flags : BodyFlags) : Prop := flags.data = none ∧ flags.dataFile = none

instance (flags : BodyFlags) : Decidable flags.Bodiless := inferInstanceAs (Decidable (_ ∧ _))

namespace Command

/-- A method with a command of its own is named by its letters in any case, and by nothing
else. The name is put in capitals before it is read. -/
theorem readMethod_eq_ok_iff {verb : Http.Method} (known : verb ∈ Http.Method.verbs)
    {text : String} : readMethod text = .ok verb ↔ verb.Spelled text := by
  obtain ⟨named, capital⟩ := Http.Method.ofString?_verb known
  unfold readMethod Http.Method.Spelled
  constructor
  · intro read
    split at read
    · rename_i method found
      cases read
      rw [Http.Method.name_of_ofString? found, String.toList_ofList, List.map_map]
      exact List.map_congr_left fun c _ => (Text.toLower_toUpper c).symm
    · cases read
  · intro spelled
    have upper (cs : List Char) : (cs.map Char.toLower).map Char.toUpper = cs.map Char.toUpper := by
      rw [List.map_map]
      exact List.map_congr_left fun c _ => Text.toUpper_toLower c
    have capitals : text.toList.map Char.toUpper = verb.name.toList := by
      rw [← upper, spelled, upper, capital]
    rw [capitals, String.ofList_toList, named]

/-- How a command with a verb of its own is given by the name of its method. -/
inductive RequestFor : Command → Command → Prop
  | get {path method : String} {body : BodyFlags} {call : CallFlags}
      (spelled : Http.Method.get.Spelled method) (bodiless : body.Bodiless) :
      RequestFor (.get path none call) (.request method path body call)
  | delete {path method : String} {body : BodyFlags} {call : CallFlags}
      (spelled : Http.Method.delete.Spelled method) (bodiless : body.Bodiless) :
      RequestFor (.delete path call) (.request method path body call)
  | post {path method : String} {body : BodyFlags} {call : CallFlags}
      (spelled : Http.Method.post.Spelled method) :
      RequestFor (.post path body call) (.request method path body call)
  | put {path method : String} {body : BodyFlags} {call : CallFlags}
      (spelled : Http.Method.put.Spelled method) :
      RequestFor (.put path body call) (.request method path body call)
  | patch {path method : String} {body : BodyFlags} {call : CallFlags}
      (spelled : Http.Method.patch.Spelled method) :
      RequestFor (.patch path body call) (.request method path body call)

section

variable (client : Client) (quiet : Bool) (now : Nat)

/-- A request with a method that has a command of its own sends as that command would. -/
theorem run_request {verb : Http.Method} (known : verb ∈ Http.Method.verbs) {method : String}
    (spelled : verb.Spelled method) (path : String) (body : BodyFlags) (call : CallFlags) :
    (request method path body call).run client quiet now =
      withOptions call quiet now (runWithBody client verb path body) := by
  rw [run, (readMethod_eq_ok_iff known).mpr spelled]

/-- Where there is nothing to send, a document is asked for. -/
theorem runWithBody_bodiless (method : Http.Method) (path : String) {body : BodyFlags}
    (bodiless : body.Bodiless) (options : CallOptions) :
    runWithBody client method path body options =
      Plan.run client ⟨⟨method, path, none⟩, options, .document⟩ := by
  rw [runWithBody_eq, readBody_run, bodiless.1, bodiless.2]
  rfl

/-- There is no document in what a deletion gives. Its response is never read, so that
asking for the document and asking for nothing come to the same. -/
theorem planDelete_run (path : String) (options : CallOptions) :
    Plan.run client ⟨⟨.delete, path, none⟩, options, .document⟩ =
      (planDelete path options).run client := by
  unfold Plan.run planDelete Call.execute
  simp only [bind_assoc]
  refine congrArg _ (funext fun _ => congrArg _ (funext fun result => ?_))
  cases result <;> rfl

theorem run_requestFor {command request : Command} (restated : RequestFor command request) :
    request.run client quiet now = command.run client quiet now := by
  cases restated with
  | @get path method body call spelled bodiless =>
    rw [run_request client quiet now (by decide) spelled, run]
    refine congrArg _ (funext fun options => ?_)
    rw [runWithBody_bodiless client _ path bodiless, runGet_eq]
    rfl
  | @delete path method body call spelled bodiless =>
    rw [run_request client quiet now (by decide) spelled, run]
    refine congrArg _ (funext fun options => ?_)
    rw [runWithBody_bodiless client _ path bodiless, runDelete_eq, planDelete_run]
  | post spelled => exact run_request client quiet now (by decide) spelled _ _ _
  | put spelled => exact run_request client quiet now (by decide) spelled _ _ _
  | patch spelled => exact run_request client quiet now (by decide) spelled _ _ _

end

/-- One command does what another one does. They are the same program, so that no
surroundings can tell them apart. -/
structure Interchangeable (command other : Command) : Prop where
  /-- Every client runs the same program for them. In all surroundings it sends the same
  requests, logs in at the same places, tells the indicator the same, leaves the same files and
  the same profile, and comes to the same. -/
  program : ∀ client quiet now, other.run client quiet now = command.run client quiet now
  /-- The whole process writes the same, ends with the same exit code and leaves the same
  behind. -/
  process : ∀ (invocation : Invocation) environment now world,
    Launch.runInvocation { invocation with command := other } environment now world =
      Launch.runInvocation { invocation with command } environment now world

/-- The command that takes any method does what the commands of the methods do. Once the
method is read, both come to the same plan, and a command is nothing but its plan. -/
theorem request_subsumes_verbs {command request : Command}
    (restated : RequestFor command request) : Interchangeable command request where
  program := fun client quiet now => run_requestFor client quiet now restated
  process := fun invocation environment now world => by
    simp only [Launch.runInvocation, Launch.runWith, run_requestFor _ _ _ restated]

/-- A list of objects that is asked for twice, and refused both times, is refused in the same
way where the method is named. -/
theorem request_subsumes_verbs_refused_twice :
    (exchanges (proceedings (refusingWorld.steps
      ((request "gEt" "/objects" { contentType := some "text/csv" } {}).run .handing false 0)))).length
        = 2 ∧
    Interchangeable (get "/objects" none {})
      (request "gEt" "/objects" { contentType := some "text/csv" } {}) := by
  have restated : RequestFor (get "/objects" none {})
      (request "gEt" "/objects" { contentType := some "text/csv" } {}) :=
    .get (by decide) (by decide)
  exact ⟨by decide +kernel, request_subsumes_verbs restated⟩

end Command

end PlatformClient
