import PlatformClient.Call.Payload
import PlatformClient.Proofs.Runs

namespace PlatformClient

namespace Effect

/-- A step that leaves the profile as it is. Only storing a token does not. -/
def sparesProfile : Effect → Bool
  | .storeToken _ => false
  | _ => true

/-- A step that leaves the files as they are. Only writing one does not. -/
def sparesFiles : Effect → Bool
  | .writeFile .. => false
  | _ => true

/-- A step that takes notice of nothing but the files, and leaves everything else
as it is. -/
def isLocal : Effect → Bool
  | .readFile _ => true
  | .writeFile .. => true
  | .record (.log ..) => true
  | _ => false

theorem isIncidental_of_isLocal {effect : Effect} (here : effect.isLocal = true) :
    effect.isIncidental = true := by
  cases effect with
  | readFile path => rfl
  | writeFile path content => rfl
  | record event =>
    cases event with
    | log level message => rfl
    | _ => cases here
  | _ => cases here

theorem sparesProfile_of_isLocal {effect : Effect} (here : effect.isLocal = true) :
    effect.sparesProfile = true := by
  cases effect with
  | storeToken token => cases here
  | _ => rfl

end Effect

/-- The files that are written, with how that went. -/
def writes (steps : List Step) : List Step := steps.filter (!·.effect.sparesFiles)

@[simp]
theorem writes_append (first rest : List Step) :
    writes (first ++ rest) = writes first ++ writes rest := List.filter_append ..

theorem writes_eq_nil {steps : List Step}
    (spares : ∀ step ∈ steps, step.effect.sparesFiles = true) : writes steps = [] := by
  refine List.filter_eq_nil_iff.mpr fun step member => ?_
  simp [spares step member]

theorem Payload.ofResponse_isLocal (method : Http.Method) (headers : CallerHeaders)
    (response : Http.Response) : (ofResponse method headers response).run.Uses (·.isLocal) := by
  unfold ofResponse
  cases handling method headers response with
  | pass payload => exact Attempt.uses_result _
  | refuse misuse => exact Attempt.uses_result _
  | save path =>
    refine Attempt.uses_bind (Attempt.uses_lift (Program.uses_step rfl)) fun written => ?_
    cases written with
    | error fault => exact Attempt.uses_result _
    | ok done =>
      exact Attempt.uses_bind (Attempt.uses_lift (Program.uses_step rfl)) fun _ =>
        Attempt.uses_result _

namespace World

theorem deliver_profile (world : World) (request : Http.Request) (script : List RemoteStep) :
    (world.deliver request script).2.profile = world.profile := by
  unfold deliver
  split <;> rfl

theorem deliver_files (world : World) (request : Http.Request) (script : List RemoteStep) :
    (world.deliver request script).2.files = world.files := by
  unfold deliver
  split <;> rfl

theorem send_profile (world : World) (purpose : Purpose) (request : Http.Request) :
    (world.send purpose request).2.profile = world.profile := by
  unfold send
  split
  · cases purpose <;> rfl
  · rfl
  · split
    · rfl
    · split
      · rfl
      · exact deliver_profile ..

theorem send_files (world : World) (purpose : Purpose) (request : Http.Request) :
    (world.send purpose request).2.files = world.files := by
  unfold send
  split
  · cases purpose <;> rfl
  · rfl
  · split
    · rfl
    · split
      · rfl
      · exact deliver_files ..

theorem takeLogin_profile (world : World) : world.takeLogin.2.profile = world.profile := by
  unfold takeLogin
  split <;> rfl

theorem takeLogin_files (world : World) : world.takeLogin.2.files = world.files := by
  unfold takeLogin
  split <;> rfl

theorem answer_writeFile (world : World) (path : String) (content : Bytes) :
    world.answer (.writeFile path content) = match world.files.write path content with
      | .error fault => (.error fault, world)
      | .ok files => (.ok (), { world with files := files }) := rfl

theorem answer_profile (world : World) {effect : Effect} (spares : effect.sparesProfile = true) :
    (world.answer effect).2.profile = world.profile := by
  cases effect with
  | storeToken token => cases spares
  | send purpose request => exact world.send_profile purpose request
  | askForToken => exact world.takeLogin_profile
  | writeFile path content =>
    rw [answer_writeFile]
    cases world.files.write path content <;> rfl
  | _ => rfl

theorem answer_files (world : World) {effect : Effect} (spares : effect.sparesFiles = true) :
    (world.answer effect).2.files = world.files := by
  cases effect with
  | writeFile path content => cases spares
  | send purpose request => exact world.send_files purpose request
  | askForToken => exact world.takeLogin_files
  | _ => rfl

theorem profile_of_allows {world : World} {profile : Profile} {rest : List Step}
    (allows : world.Allows (⟨.readProfile, profile⟩ :: rest)) : world.profile = profile := allows.1

theorem after_profile {world : World} {steps : List Step}
    (spare : ∀ step ∈ steps, step.effect.sparesProfile = true) :
    (world.after steps).profile = world.profile := by
  induction steps generalizing world with
  | nil => rfl
  | cons step rest ih =>
    obtain ⟨first, later⟩ := List.forall_mem_cons.mp spare
    exact (ih later).trans (world.answer_profile first)

theorem after_files {world : World} {steps : List Step}
    (spare : ∀ step ∈ steps, step.effect.sparesFiles = true) :
    (world.after steps).files = world.files := by
  induction steps generalizing world with
  | nil => rfl
  | cons step rest ih =>
    obtain ⟨first, later⟩ := List.forall_mem_cons.mp spare
    exact (ih later).trans (world.answer_files first)

/-- A local step gives the same in all worlds with the same files, and leaves the same files
there. Profile, logins and the other side may differ. -/
theorem answer_of_files {world other : World} {effect : Effect}
    (here : effect.isLocal = true) (files : other.files = world.files) :
    (other.answer effect).1 = (world.answer effect).1 ∧
      (other.answer effect).2.files = (world.answer effect).2.files := by
  cases effect with
  | readFile path => exact ⟨congrArg (·.read path) files, files⟩
  | writeFile path content =>
    rw [answer_writeFile, answer_writeFile, files]
    cases world.files.write path content with
    | error fault => exact ⟨rfl, files⟩
    | ok written => exact ⟨rfl, rfl⟩
  | record event => exact ⟨rfl, files⟩
  | _ => cases here

/-- A program of local steps goes the same way in all worlds with the same files. Each step
is answered alike and leaves the files alike, so that the next one is as well. -/
theorem run_of_files {α : Type} {world other : World} {program : Program α}
    (uses : program.Uses (·.isLocal)) (files : other.files = world.files) :
    (other.run program).1 = (world.run program).1 ∧
      (other.run program).2.files = (world.run program).2.files ∧
      other.steps program = world.steps program := by
  induction uses generalizing world other with
  | done value => exact ⟨rfl, files, rfl⟩
  | @perform effect next here _ ih =>
    obtain ⟨same, later⟩ := answer_of_files here files
    obtain ⟨value, final, steps⟩ := ih (other.answer effect).1 later
    simp only [run, World.steps]
    rw [same] at value final steps ⊢
    exact ⟨value, final, by rw [steps]⟩

end World

end PlatformClient
