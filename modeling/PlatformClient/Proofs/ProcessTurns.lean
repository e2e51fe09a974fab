import PlatformClient.Proofs.TokenPersistence

namespace PlatformClient.Launch

/-- A process that shares its files with another. Besides them it meets its own
surroundings, in which it has its own login and its own replies. -/
structure Process where
  invocation : Invocation
  environment : Config.Environment
  now : Nat
  surroundings : World

/-- What a process has left behind that has saved a new token. -/
structure TokenSave where
  /-- The configuration as it was loaded at the start. -/
  config : Config
  profile : Profile
  outcome : Outcome
  deriving DecidableEq, Repr

/-- How far a process has come. -/
inductive Stage where
  | started
  | loaded (config : Config) (profile : Profile)
  | called (config : Config) (before after : Profile) (result : Command.Result)
  | saved (left : TokenSave)
  /-- It is over, and no token has been saved. -/
  | finished (outcome : Outcome)

namespace Process

variable (process : Process)

def chosen : Config.Environment := Launch.chosen process.invocation process.environment

/-- The name of the profile that is used of a configuration. -/
def name (config : Config) : String := process.invocation.profile.getD config.currentProfile

/-- Loads the configuration and takes a profile of it. -/
def load (files : Files) : Files × Stage :=
  match loadConfig process.chosen (prepareLogs process.chosen files) with
  | (files, .error message) => (files, .finished (complaint CommandError.failure message))
  | (files, .ok config) =>
    match selectedProfile config process.invocation.profile with
    | .error error => (files, .finished (complaint CommandError.invalidInput error.message))
    | .ok profile =>
      match profile.baseUrl with
      | .error error => (files, .finished (complaint CommandError.failure error.message))
      | .ok _ => (files, .loaded config profile)

/-- Runs the command. -/
def call (files : Files) (config : Config) (profile : Profile) : Files × Stage :=
  match { process.surroundings with files := files, profile := profile }.run
      (process.invocation.command.run (client process.invocation) process.invocation.quiet
        process.now) with
  | (none, world) => (world.files, .finished (ending none))
  | (some result, world) => (world.files, .called config profile world.profile result)

/-- Saves the configuration that was loaded, with the profile as it is now, if its token has
changed. -/
def keep (files : Files) (config : Config) (before after : Profile) (result : Command.Result) :
    Files × Stage :=
  if after.token = before.token then (files, .finished (Command.outcome result))
  else
    match trySave process.chosen files (config.upsert (process.name config) after) with
    | (files, .ok ()) => (files, .saved ⟨config, after, Command.outcome result⟩)
    | (files, .error _) => (files, .finished (Command.outcome result))

/-- The next step of a process. A run is cut at the two places where it has just read or is
about to write the document, as the other process may come in between. -/
def turn : Files × Stage → Files × Stage
  | (files, .started) => process.load files
  | (files, .loaded config profile) => process.call files config profile
  | (files, .called config before after result) => process.keep files config before after result
  | (files, .saved left) => (files, .saved left)
  | (files, .finished outcome) => (files, .finished outcome)

end Process

def Stage.outcome? : Stage → Option Outcome
  | .saved left => some left.outcome
  | .finished outcome => some outcome
  | _ => none

def Stage.saved? : Stage → Option TokenSave
  | .saved left => some left
  | _ => none

theorem Stage.saved?_eq_some_iff {stage : Stage} {left : TokenSave} :
    stage.saved? = some left ↔ stage = .saved left := by
  cases stage <;> simp [saved?]

/-- Between its start and its end. -/
def Stage.Underway : Stage → Prop
  | .loaded _ _ => True
  | .called _ _ _ _ => True
  | _ => False

/-- Before its start, or behind a save. -/
def Stage.Resting : Stage → Prop
  | .started => True
  | .saved _ => True
  | _ => False

/-- The steps of a process that shares its files with nobody make up a run. So cutting a run
into steps has changed nothing of it. -/
theorem Process.turn_alone (process : Process) (files : Files) :
    ∃ stage, process.turn^[3] (files, .started) =
        ((runInvocation process.invocation process.environment process.now
          { process.surroundings with files := files }).2.files, stage) ∧
      stage.outcome? = some (runInvocation process.invocation process.environment process.now
        { process.surroundings with files := files }).1 := by
  simp only [Function.iterate_succ, Function.iterate_zero, Function.comp_apply, id, turn, load,
    runInvocation]
  have chosen : { process.environment with choice := process.invocation.config } =
      process.chosen := rfl
  rw [chosen]
  cases loadConfig process.chosen (prepareLogs process.chosen files) with
  | mk found loaded =>
    cases loaded with
    | error message => exact ⟨_, rfl, rfl⟩
    | ok config =>
      dsimp only
      cases selectedProfile config process.invocation.profile with
      | error error => exact ⟨_, rfl, rfl⟩
      | ok profile =>
        dsimp only
        cases profile.baseUrl with
        | error error => exact ⟨_, rfl, rfl⟩
        | ok url =>
          dsimp only [turn, call]
          rw [runWith, ofSettings_eq]
          dsimp only
          generalize World.run _ _ = ends
          obtain ⟨_ | result, ended⟩ := ends
          · exact ⟨_, rfl, rfl⟩
          · dsimp only [turn, keep, keepToken]
            rw [saveConfig_eq]
            split_ifs with kept
            · exact ⟨_, rfl, rfl⟩
            · dsimp only [name]
              generalize trySave _ _ _ = saved
              obtain ⟨after, _ | _⟩ := saved <;> exact ⟨_, rfl, rfl⟩

/-- A configuration with a profile of a process, as it is loaded. -/
structure Process.Uses (process : Process) (config : Config) (profile : Profile) : Prop where
  sorted : Config.Sorted config.profiles
  known : config.profiles.lookup (process.name config) = some profile

/-- What a process leaves in the document. -/
def Process.document (process : Process) (left : TokenSave) : Config :=
  left.config.withToken (process.name left.config) left.profile.token

/-- What holds of the stages of a process: it carries a configuration that was loaded, and
profiles of it that differ in the token at most. Each step preserves it. -/
def Process.Holds (process : Process) : Stage → Prop
  | .started => True
  | .loaded config profile => process.Uses config profile
  | .called config before after _ =>
    process.Uses config before ∧ after = { before with token := after.token }
  | .saved left => ∃ before, process.Uses left.config before ∧
      left.profile = { before with token := left.profile.token } ∧
      left.profile.token ≠ before.token
  | .finished _ => True

/-- The ways that a step of a process can go, where the document has this path. Whatever
does not load, call or save ends the process. -/
inductive Process.Turns (process : Process) (path : String) (first next : Files × Stage) : Prop
  | ends {outcome : Outcome} (unsaved : ∀ left, first.2 ≠ .saved left)
      (now : next.2 = .finished outcome)
  | loads {config : Config} {profile : Profile} (before : first.2 = .started)
      (now : next.2 = .loaded config profile) (grown : first.1.Grown next.1)
      (loaded : Config.load next.1 path = .ok config) (uses : process.Uses config profile)
  | calls {config : Config} {profile ended : Profile} {result : Command.Result}
      (before : first.2 = .loaded config profile)
      (now : next.2 = .called config profile ended result)
      (same : ended = { profile with token := ended.token })
  | saves {config : Config} {profile ended : Profile} {result : Command.Result}
      {left : TokenSave} (before : first.2 = .called config profile ended result)
      (now : next.2 = .saved left) (made : left = ⟨config, ended, Command.outcome result⟩)
      (changed : ended.token ≠ profile.token)
      (loaded : Config.load next.1 path = .ok (process.document left))
  | rests {left : TokenSave} (before : first.2 = .saved left) (now : next = first)

namespace Process

variable {process : Process} {directory : String}

theorem turns_load (place : Config.directory? process.chosen = some directory) (files : Files) :
    process.Turns (Files.join directory "config.toml") (files, .started) (process.load files) := by
  unfold load loadConfig
  cases found : Config.findDocument process.chosen (prepareLogs process.chosen files) with
  | mk after result =>
    cases result with
    | error error => exact .ends nofun rfl
    | ok path =>
      dsimp only
      cases loaded : Config.load after path with
      | error error => exact .ends nofun rfl
      | ok config =>
        let world : World := { process.surroundings with files := files }
        let opening : Opening process.invocation process.environment world.files :=
          ⟨path, after, config, found, loaded⟩
        dsimp only [Except.mapError]
        cases selected : selectedProfile config process.invocation.profile with
        | error error => exact .ends nofun rfl
        | ok profile =>
          dsimp only
          cases profile.baseUrl with
          | error error => exact .ends nofun rfl
          | ok url =>
            obtain ⟨_, here, rfl⟩ := directory_of_findDocument (congrArg (·.2) found)
            obtain rfl := Option.some.inj (place.symm.trans here)
            have grown := grown_opening process.chosen files
            rw [found] at grown
            have known : config.profiles.lookup (process.name config) = some profile :=
              opening.lookup_selected selected
            exact .loads rfl rfl grown loaded ⟨Config.sorted_load loaded, known⟩

theorem turns_call (path : String) (files : Files) (config : Config) (profile : Profile) :
    process.Turns path (files, .loaded config profile) (process.call files config profile) := by
  unfold call
  have same := World.run_profile { process.surroundings with files := files, profile := profile }
    (process.invocation.command.run (client process.invocation) process.invocation.quiet
      process.now)
  generalize World.run _ _ = ends at same ⊢
  obtain ⟨_ | result, ended⟩ := ends
  · exact .ends nofun rfl
  · exact .calls rfl rfl same

theorem turns_keep (place : Config.directory? process.chosen = some directory) {config : Config}
    {before after : Profile} (uses : process.Uses config before)
    (same : after = { before with token := after.token }) (files : Files)
    (result : Command.Result) :
    process.Turns (Files.join directory "config.toml") (files, .called config before after result)
      (process.keep files config before after result) := by
  unfold keep
  split_ifs with kept
  · exact .ends nofun rfl
  · have loaded := @load_trySave _ files _ _ _ _ _ place uses.sorted uses.known same
    generalize trySave _ _ _ = ends at loaded ⊢
    obtain ⟨there, _ | _⟩ := ends
    · exact .ends nofun rfl
    · exact .saves rfl rfl rfl kept (loaded rfl)

theorem turns_turn (place : Config.directory? process.chosen = some directory) {stage : Stage}
    (holds : process.Holds stage) (files : Files) :
    process.Turns (Files.join directory "config.toml") (files, stage)
      (process.turn (files, stage)) := by
  cases stage with
  | started => exact turns_load place files
  | loaded config profile => exact turns_call _ files config profile
  | called config before after result => exact turns_keep place holds.1 holds.2 files result
  | saved left => exact .rests rfl rfl
  | finished outcome => exact .ends nofun rfl

theorem Turns.holds {path : String} {first next : Files × Stage}
    (turns : process.Turns path first next) (holds : process.Holds first.2) :
    process.Holds next.2 := by
  cases turns with
  | ends unsaved now =>
    rw [now]
    trivial
  | loads before now grown loaded uses =>
    rw [now]
    exact uses
  | calls before now same =>
    rw [before] at holds
    rw [now]
    exact ⟨holds, same⟩
  | saves before now made changed loaded =>
    rw [before] at holds
    rw [now, made]
    exact ⟨_, holds.1, holds.2, changed⟩
  | rests before now =>
    rw [now]
    exact holds

theorem Turns.of_started {path : String} {first next : Files × Stage}
    (turns : process.Turns path first next) (before : first.2 = .started) :
    (∃ outcome, next.2 = .finished outcome) ∨
      ∃ config profile, next.2 = .loaded config profile ∧ process.Uses config profile := by
  cases turns with
  | ends _ now => exact Or.inl ⟨_, now⟩
  | loads _ now _ _ uses => exact Or.inr ⟨_, _, now, uses⟩
  | calls other | saves other | rests other => cases before.symm.trans other

theorem Turns.of_finished {path : String} {first next : Files × Stage} {outcome : Outcome}
    (turns : process.Turns path first next) (before : first.2 = .finished outcome) :
    ∃ outcome, next.2 = .finished outcome := by
  cases turns with
  | ends _ now => exact ⟨_, now⟩
  | loads other | calls other | saves other | rests other => cases before.symm.trans other

theorem Turns.of_saved {path : String} {first next : Files × Stage} {left : TokenSave}
    (turns : process.Turns path first next) (before : first.2 = .saved left) : next = first := by
  cases turns with
  | ends unsaved => exact absurd before (unsaved left)
  | rests _ now => exact now
  | loads other | calls other | saves other => cases before.symm.trans other

/-- Behind a save the document is what the process leaves. -/
theorem Turns.load_document {path : String} {first next : Files × Stage} {left : TokenSave}
    (turns : process.Turns path first next) (unsaved : ∀ left, first.2 ≠ .saved left)
    (now : next.2 = .saved left) : Config.load next.1 path = .ok (process.document left) := by
  cases turns with
  | saves _ there _ _ loaded =>
    cases now.symm.trans there
    exact loaded
  | ends _ other | loads _ other | calls _ other => cases now.symm.trans other
  | rests before => exact absurd before (unsaved _)

/-- The document has the new token. -/
theorem profile_document {left : TokenSave} (holds : process.Holds (.saved left)) :
    (process.document left).profile (process.name left.config) = .ok left.profile := by
  obtain ⟨before, uses, same, -⟩ := holds
  rw [Config.profile_eq_ok_iff, document, Config.lookup_withToken, uses.known, Option.map_some,
    if_pos rfl, ← same]

theorem profile_document_of_ne {left : TokenSave} {name : String}
    (other : name ≠ process.name left.config) :
    (process.document left).profile name = left.config.profile name := by
  have same : (process.document left).profiles.lookup name = left.config.profiles.lookup name := by
    rw [document, Config.lookup_withToken]
    simp only [if_neg other, Option.map_id']
  rw [Config.profile, Config.profile, same]

/-- The configuration as it was loaded does not have the new token. -/
theorem profile_of_holds {left : TokenSave} (holds : process.Holds (.saved left)) :
    left.config.profile (process.name left.config) ≠ .ok left.profile := by
  obtain ⟨before, uses, -, changed⟩ := holds
  rw [Ne, Config.profile_eq_ok_iff, uses.known]
  rintro ⟨⟩
  exact changed rfl

end Process

end PlatformClient.Launch
