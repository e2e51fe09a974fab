import PlatformClient.Launch
import PlatformClient.Proofs.ResponseFiles
import PlatformClient.Proofs.RetryProtocol
import PlatformClient.Proofs.SavedConfigurations

namespace PlatformClient.Launch

/-- The environment with the choice of the caller. -/
def chosen (invocation : Invocation) (environment : Config.Environment) : Config.Environment :=
  { environment with choice := invocation.config }

/-- The client that a run makes its calls with. -/
def client (invocation : Invocation) : Client :=
  ⟨.profile, if invocation.curl then .logged else .off, some (Text.encode "obsctl/0.2.0")⟩

theorem ofSettings_eq (invocation : Invocation) :
    Client.ofSettings { showsCommands := invocation.curl } .profile .logged =
      .ok (client invocation) := by
  have value : Http.headerValue? "obsctl/0.2.0" = some (Text.encode "obsctl/0.2.0") := by
    decide +kernel
  rw [Client.ofSettings, value]
  rfl

theorem client_logsInOnly (invocation : Invocation) (name : Option String) :
    (client invocation).LogsInOnly name := Login.profileLogin_saves _

/-- Saves the configuration, and tells whether that has succeeded. -/
def trySave (environment : Config.Environment) (files : Files) (config : Config) :
    Files × Except String Unit :=
  match Config.findDocument environment files with
  | (files, .error error) => (files, .error error.message)
  | (files, .ok path) =>
    ((config.save files path).1, (config.save files path).2.mapError (·.message))

theorem saveConfig_eq (environment : Config.Environment) (files : Files) (config : Config) :
    saveConfig environment files config = (trySave environment files config).1 := by
  unfold saveConfig trySave
  obtain ⟨found, result⟩ := Config.findDocument environment files
  cases result <;> rfl

theorem directory_of_findDocument {environment : Config.Environment} {files : Files} {path : String}
    (found : (Config.findDocument environment files).2 = .ok path) :
    ∃ directory, Config.directory? environment = some directory ∧
      path = Files.join directory "config.toml" := by
  unfold Config.findDocument Config.findDirectory at found
  cases known : Config.directory? environment with
  | none =>
    rw [known] at found
    cases found
  | some directory =>
    rw [known] at found
    refine ⟨directory, rfl, ?_⟩
    dsimp only at found
    unfold Config.ensureDirectory at found
    split_ifs at found
    · exact (Except.ok.inj found).symm
    · split at found
      · exact (Except.ok.inj found).symm
      · cases found

/-- A configuration in which a profile has a new token is loaded again once it has been
saved. It is saved from what was loaded at the start, so that nothing else of it can be
different. -/
theorem load_trySave {environment : Config.Environment} {files : Files} {directory name : String}
    {config : Config} {before after : Profile}
    (place : Config.directory? environment = some directory)
    (sorted : Config.Sorted config.profiles) (known : config.profiles.lookup name = some before)
    (same : after = { before with token := after.token })
    (success : (trySave environment files (config.upsert name after)).2 = .ok ()) :
    Config.load (trySave environment files (config.upsert name after)).1
      (Files.join directory "config.toml") = .ok (config.withToken name after.token) := by
  have upserted : config.upsert name after = config.withToken name after.token := by
    rw [same]
    exact Config.upsert_eq_withToken sorted known _
  have kept : Config.Sorted (config.upsert name after).profiles :=
    Config.sorted_insertProfile sorted _ _
  rw [← upserted]
  unfold trySave at success ⊢
  cases there : Config.findDocument environment files with
  | mk files result =>
    cases result with
    | error error =>
      rw [there] at success
      cases success
    | ok path =>
      obtain ⟨_, here, rfl⟩ := directory_of_findDocument (congrArg (·.2) there)
      obtain rfl := Option.some.inj (place.symm.trans here)
      rw [there] at success
      refine Config.load_of_save kept ?_
      cases saved : ((config.upsert name after).save files _).2 with
      | ok _ => rfl
      | error error =>
        dsimp only at success
        rw [saved] at success
        cases success

theorem grown_prepareLogs (environment : Config.Environment) (files : Files) :
    files.Grown (prepareLogs environment files) := by
  have logs := Config.grown_findLogDirectory environment files
  rw [prepareLogs]
  split
  · rename_i known
    rw [known] at logs
    exact logs.trans (Files.grown_createDirectories _ _)
  · rename_i known
    rw [known] at logs
    exact logs.trans (Files.grown_createDirectories _ _)

/-- The beginning of a run that loads its configuration. All that is said of the document
later refers to the files as they are at this moment. -/
structure Opening (invocation : Invocation) (environment : Config.Environment) (start : Files) where
  path : String
  files : Files
  config : Config
  found : Config.findDocument (chosen invocation environment)
    (prepareLogs (chosen invocation environment) start) = (files, .ok path)
  loaded : Config.load files path = .ok config

/-- What is written at the end of a command, which nothing behind it changes. -/
def ending : Option Command.Result → Outcome
  | none => ⟨aborted, "", clockMessage ++ "\n"⟩
  | some result => Command.outcome result

namespace Opening

variable {invocation : Invocation} {environment : Config.Environment} {world : World}
  (opening : Opening invocation environment world.files)

/-- The name of the profile in use. -/
def name : String := invocation.profile.getD opening.config.currentProfile

def selected : Except ProfileError Profile := selectedProfile opening.config invocation.profile

/-- How the command of a run ends with a profile, before the token is kept. -/
def commandEnd (now : Nat) (profile : Profile) : Option Command.Result × World :=
  { world with files := opening.files, profile := profile }.run
    (invocation.command.run (client invocation) invocation.quiet now)

/-- Keeps the profile of a world in the document. -/
def save (ended : World) : Files × Except String Unit :=
  trySave (chosen invocation environment) ended.files
    (opening.config.upsert opening.name ended.profile)

/-- The document is what it was: what is read from it is what was loaded, and at its place
there is what there was at the start. The place is named as well as the path, as a path
could come to lead elsewhere. -/
def Untouched (after : Files) : Prop :=
  after.read opening.path = opening.files.read opening.path ∧
    ∀ location, opening.files.Names opening.path location →
      after.entry? location = world.files.entry? location

/-- A response that is a file is not saved in place of the document. Whoever names the
document itself as the output wants it replaced. -/
def SavesElsewhere : Prop :=
  ∀ name, invocation.command.saveName? = some name →
    ∀ location, opening.files.Names opening.path location → ¬ opening.files.Names name location

theorem lookup_selected {profile : Profile} (selected : opening.selected = .ok profile) :
    opening.config.profiles.lookup opening.name = some profile := by
  rw [← Config.profile_eq_ok_iff, ← selected, Opening.selected, name]
  cases invocation.profile <;> rfl

theorem loadConfig_eq :
    loadConfig (chosen invocation environment)
        (prepareLogs (chosen invocation environment) world.files) =
      (opening.files, .ok opening.config) := by
  rw [loadConfig, opening.found]
  dsimp only
  rw [opening.loaded]
  rfl

/-- The run goes on with what has been loaded. It ends early where no profile can be
selected, or where the address of the profile cannot be read; else the command runs, and its
token is kept. -/
theorem runInvocation_eq (now : Nat) :
    runInvocation invocation environment now world =
      match opening.selected with
      | .error error =>
        (complaint CommandError.invalidInput error.message, { world with files := opening.files })
      | .ok profile =>
        match profile.baseUrl with
        | .error error =>
          (complaint CommandError.failure error.message, { world with files := opening.files })
        | .ok _ =>
          runWith invocation (chosen invocation environment) opening.config profile now
            { world with files := opening.files } := by
  have known := opening.loadConfig_eq
  unfold chosen at known
  simp only [runInvocation, known]
  rfl

theorem runInvocation_stops (now : Nat)
    (stops : ∀ profile url, opening.selected = .ok profile → profile.baseUrl ≠ .ok url) :
    (runInvocation invocation environment now world).2 = { world with files := opening.files } := by
  rw [opening.runInvocation_eq now]
  split
  · rfl
  · rename_i profile selected
    split
    · rfl
    · rename_i url usable
      exact absurd usable (stops profile url selected)

theorem runWith_eq (now : Nat) (profile : Profile) :
    runWith invocation (chosen invocation environment) opening.config profile now
        { world with files := opening.files } =
      match opening.commandEnd now profile with
      | (none, world) => (⟨aborted, "", clockMessage ++ "\n"⟩, world)
      | (some result, world) => (Command.outcome result,
        keepToken (chosen invocation environment) opening.config opening.name profile world) := by
  rw [runWith, ofSettings_eq]
  rfl

theorem runInvocation_goes (now : Nat) {profile : Profile} {url : Url}
    (selected : opening.selected = .ok profile) (usable : profile.baseUrl = .ok url) :
    runInvocation invocation environment now world =
      (ending (opening.commandEnd now profile).1,
        if (opening.commandEnd now profile).2.profile.token = profile.token then
          (opening.commandEnd now profile).2
        else { (opening.commandEnd now profile).2 with
          files := (opening.save (opening.commandEnd now profile).2).1 }) := by
  rw [opening.runInvocation_eq now, selected]
  dsimp only
  rw [usable]
  dsimp only
  rw [opening.runWith_eq now profile]
  have unchanged (absent : (opening.commandEnd now profile).1 = none) :
      (opening.commandEnd now profile).2.profile = profile := by
    rw [commandEnd, World.eq_pure_of_beyondClock absent]
    rfl
  generalize opening.commandEnd now profile = ends at unchanged ⊢
  obtain ⟨result, ended⟩ := ends
  cases result with
  | none =>
    dsimp only at unchanged ⊢
    rw [unchanged rfl, if_pos rfl]
    rfl
  | some result =>
    dsimp only [keepToken]
    rw [saveConfig_eq]
    rfl

theorem grown : world.files.Grown opening.files := by
  have document := Config.grown_findDocument (chosen invocation environment)
    (prepareLogs (chosen invocation environment) world.files)
  rw [opening.found] at document
  exact (grown_prepareLogs _ _).trans document

/-- At the place of the document there is what there was at the start. -/
theorem entryAt_document {location : Files.Location}
    (names : opening.files.Names opening.path location) :
    opening.files.entry? location = world.files.entry? location := by
  rcases opening.grown.entries location with same | ⟨-, directory⟩
  · exact same
  · exact absurd directory names.2

theorem untouched_files : opening.Untouched opening.files :=
  ⟨rfl, fun _ names => opening.entryAt_document names⟩

/-- Where a profile is in use, there is a document. -/
theorem read_document {profile : Profile} (selected : opening.selected = .ok profile) :
    ∃ content, opening.files.read opening.path = .ok content :=
  Config.read_of_load opening.loaded (opening.lookup_selected selected)

/-- A command writes under the name for its response only, and that name leads elsewhere. -/
theorem untouched_command {profile : Profile} (selected : opening.selected = .ok profile)
    (elsewhere : opening.SavesElsewhere) (now : Nat) :
    opening.Untouched (opening.commandEnd now profile).2.files := by
  have saves : (invocation.command.run (client invocation) invocation.quiet now).Uses
      (Effect.SavesOnly invocation.command.saveName?) :=
    Command.run_saves (client_logsInOnly invocation _) _ _
  have saved : opening.files.SavedUnder invocation.command.saveName?
      (opening.commandEnd now profile).2.files := World.run_saves saves (.refl opening.files)
  have same {location : Files.Location} (names : opening.files.Names opening.path location) :
      Files.entry? (opening.commandEnd now profile).2.files location =
        opening.files.entry? location :=
    saved.elsewhere fun path named => elsewhere path named location names
  obtain ⟨content, read⟩ := opening.read_document selected
  obtain ⟨location, names, known⟩ := Files.names_of_read read
  refine ⟨?_, fun place names => (same names).trans (opening.entryAt_document names)⟩
  rw [read]
  have there := (same names).trans known
  refine Files.read_of_names (names.kept saved.keepsDirectories ?_) there
  rw [there]
  nofun

/-- The document that has been saved differs in one token only. A run changes nothing else
of its profile, and other profiles are written as they were read. -/
theorem load_saved {profile : Profile} (selected : opening.selected = .ok profile) {ended : World}
    (same : ended.profile = { profile with token := ended.profile.token })
    (success : (opening.save ended).2 = .ok ()) :
    Config.load (opening.save ended).1 opening.path =
      .ok (opening.config.withToken opening.name ended.profile.token) := by
  obtain ⟨directory, place, path⟩ := directory_of_findDocument (congrArg (·.2) opening.found)
  rw [path]
  exact load_trySave place (Config.sorted_load opening.loaded) (opening.lookup_selected selected)
    same success

end Opening

/-- A token that has changed at the end of a run is there when the configuration is loaded
again, and nothing else is different, unless it could not be saved. Where no token has
changed, or nothing was called at all, the document is what it was. What is written at the
end is decided before anything is saved, so that a run does not end differently for a
document that cannot be written. -/
theorem token_persistence {invocation : Invocation} {environment : Config.Environment}
    {world after : World} {outcome : Outcome} {now : Nat}
    (opening : Opening invocation environment world.files)
    (run : runInvocation invocation environment now world = (outcome, after)) :
    ((∀ profile url, opening.selected = .ok profile → profile.baseUrl ≠ .ok url) →
        opening.Untouched after.files) ∧
      ∀ profile url, opening.selected = .ok profile → profile.baseUrl = .ok url →
        ∃ result ended, opening.commandEnd now profile = (result, ended) ∧
          outcome = ending result ∧ after.profile = ended.profile ∧
          (after.profile.token ≠ profile.token →
            after.files = (opening.save ended).1 ∧
              ((opening.save ended).2 = .ok () →
                Config.load after.files opening.path =
                  .ok (opening.config.withToken opening.name after.profile.token))) ∧
          (after.profile.token = profile.token → opening.SavesElsewhere →
            opening.Untouched after.files) := by
  refine ⟨fun stops => ?_, fun profile url selected usable => ?_⟩
  · have final : (outcome, after).2 = _ := run ▸ opening.runInvocation_stops now stops
    rw [show after = _ from final]
    exact opening.untouched_files
  have final := opening.runInvocation_goes now selected usable
  have same : (opening.commandEnd now profile).2.profile =
      { profile with token := (opening.commandEnd now profile).2.profile.token } :=
    World.run_profile _ _
  have untouched := fun elsewhere => opening.untouched_command selected elsewhere now
  cases ends : opening.commandEnd now profile with
  | mk result ended =>
    rw [run, ends] at final
    rw [ends] at same untouched
    obtain ⟨written, reached⟩ := Prod.mk.inj final
    by_cases kept : ended.profile.token = profile.token
    · rw [if_pos kept] at reached
      subst reached
      exact ⟨result, _, rfl, written, rfl, fun changed => absurd kept changed,
        fun _ elsewhere => untouched elsewhere⟩
    · rw [if_neg kept] at reached
      subst reached
      exact ⟨result, ended, rfl, written, rfl,
        fun _ => ⟨rfl, fun success => opening.load_saved selected same success⟩,
        fun equal => absurd equal kept⟩

section Runs

def inDirectory : Config.Environment := { configDirectory := some "cfg" }

/-- Files with a document in a directory of its own. -/
def filesWith (document : String) : Files :=
  ((Files.emptyAt ["work"]).put ["work", "cfg"] .directory).put ["work", "cfg", "config.toml"]
    (.file (Text.encode document))

theorem read_filesWith (document : String) :
    (filesWith document).read "cfg/config.toml" = .ok (Text.encode document) := by
  have fine : Files.checkPath "cfg/config.toml" = .ok () := by decide +kernel
  have route : Files.Route.ofPath "cfg/config.toml" = ⟨false, ["cfg", "config.toml"], false⟩ := by
    decide +kernel
  have names : (filesWith document).Names "cfg/config.toml" ["work", "cfg", "config.toml"] := by
    refine ⟨?_, nofun⟩
    rw [Files.locate, fine]
    simp only [route]
    rfl
  exact Files.read_of_names names rfl

theorem grown_opening (environment : Config.Environment) (files : Files) :
    files.Grown (Config.findDocument environment (prepareLogs environment files)).1 :=
  (grown_prepareLogs environment files).trans (Config.grown_findDocument environment _)

/-- A service that has not logged in yet. -/
def serviceProfile : Profile where
  url := "http://platform.test"
  authMethod := .servicePrincipal
  tenantId := "t"
  clientId := "c"
  clientSecret := "s"

def serviceConfig : Config where
  currentProfile := "service"
  profiles := [("other", { url := "http://other.test", token := "kept" }),
    ("service", serviceProfile)]

def failingGet : Invocation := { command := .get "/x" none {} }

/-- The service is given a token, and then its call fails. -/
def serviceWorld : World where
  profile := {}
  files := filesWith serviceConfig.print
  remote := .script [
    .answer (.response Http.ok []
      (Text.encode "\x7b\"access_token\":\"fresh\"\x7d")),
    .answer (.response (.mk 500 (by decide) (by decide)) [] [])]

def serviceOpening : Opening failingGet inDirectory serviceWorld.files where
  path := "cfg/config.toml"
  files := (Config.findDocument inDirectory (prepareLogs inDirectory serviceWorld.files)).1
  config := serviceConfig
  found := Prod.ext rfl (by decide +kernel)
  loaded := by
    refine Config.load_of_read ((grown_opening _ _).read (read_filesWith _)) ?_
    exact List.pairwise_pair.mpr (by decide +kernel)

theorem token_persistence_behind_failure :
    ∃ outcome after,
      runInvocation failingGet inDirectory 0 serviceWorld = (outcome, after) ∧
        outcome.exitCode = CommandError.failure ∧
        Config.load after.files "cfg/config.toml" =
          .ok (serviceConfig.withToken "service" "fresh") := by
  have code : (ending (serviceOpening.commandEnd 0 serviceProfile).1).exitCode =
      CommandError.failure := by decide +kernel
  have token : (serviceOpening.commandEnd 0 serviceProfile).2.profile.token = "fresh" := by
    decide +kernel
  have success :
      (serviceOpening.save (serviceOpening.commandEnd 0 serviceProfile).2).2 = .ok () := by
    decide +kernel
  have usable : serviceProfile.baseUrl.isOk = true := by decide +kernel
  cases run : runInvocation failingGet inDirectory 0 serviceWorld with
  | mk outcome after =>
    cases url : serviceProfile.baseUrl with
    | error error =>
      rw [url] at usable
      cases usable
    | ok url' =>
      obtain ⟨result, ended, ends, written, kept, changed, -⟩ :=
        (token_persistence serviceOpening run).2 serviceProfile url' rfl url
      rw [ends] at code token success
      have different : after.profile.token ≠ serviceProfile.token := by
        rw [kept, token]
        decide
      have loaded := (changed different).2 success
      refine ⟨outcome, after, rfl, written ▸ code, ?_⟩
      rw [kept, token] at loaded
      exact loaded

def savingProfile : Profile := { url := "http://platform.test", token := "tok" }

def savingDocument : String :=
  "[profiles.default]\nurl = \"http://platform.test\"\ntoken = \"tok\"\n"

/-- A response that is a file is to be saved in place of the document. -/
def savingGet : Invocation where
  command := .get "/x" none { headers := ["solutionFileName=cfg/config.toml"] }

def savingWorld : World where
  profile := {}
  files := filesWith savingDocument
  remote := .script [
    .answer (.response Http.ok
      [(.contentType, Text.encode "application/zip")] (Text.encode "PK"))]

def savingOpening : Opening savingGet inDirectory savingWorld.files where
  path := "cfg/config.toml"
  files := (Config.findDocument inDirectory (prepareLogs inDirectory savingWorld.files)).1
  config := ⟨"default", [("default", savingProfile)]⟩
  found := Prod.ext rfl (by decide +kernel)
  loaded := by decide +kernel

/-- A header names the file for a response as well as the option for the output does. -/
theorem response_replaces_document :
    savingGet.command.callFlags?.bind (·.output) = none ∧
      savingOpening.selected = .ok savingProfile ∧ savingProfile.baseUrl.isOk = true ∧
      (runInvocation savingGet inDirectory 0 savingWorld).2.profile.token = savingProfile.token ∧
      (runInvocation savingGet inDirectory 0 savingWorld).2.files.read savingOpening.path =
        .ok (Text.encode "PK") ∧
      ¬ savingOpening.Untouched (runInvocation savingGet inDirectory 0 savingWorld).2.files := by
  have replaced : (runInvocation savingGet inDirectory 0 savingWorld).2.files.read
      savingOpening.path = .ok (Text.encode "PK") := by decide +kernel
  refine ⟨rfl, by decide +kernel, by decide +kernel, by decide +kernel, replaced,
    fun untouched => ?_⟩
  have before : savingOpening.files.read savingOpening.path = .ok (Text.encode savingDocument) :=
    (grown_opening inDirectory (filesWith savingDocument)).read (read_filesWith savingDocument)
  have same := untouched.1
  rw [replaced, before] at same
  exact absurd (Except.ok.inj same) (by decide +kernel)

end Runs

end PlatformClient.Launch
