import PlatformClient.Call.World
import PlatformClient.Command.Execution
import PlatformClient.Command.Reader
import PlatformClient.Config.Location

namespace PlatformClient.Launch

/-- The name and the version of the program. -/
def versionText : String := "obsctl 0.2.0\n"

/-- The exit code of a process that cannot go on. -/
def aborted : Nat := 101

/-- What is written about something that ends the process. -/
def complaint (exitCode : Nat) (message : String) : Outcome :=
  ⟨exitCode, "", "Error: " ++ message ++ "\n"⟩

/-- Finds the directory for logs and creates it if that is possible. -/
def prepareLogs (environment : Config.Environment) (files : Files) : Files :=
  match Config.findLogDirectory environment files with
  | (files, .ok directory) => (files.createDirectories directory).1
  | (files, .error _) => (files.createDirectories ".").1

/-- Loads the configuration that the environment leads to. -/
def loadConfig (environment : Config.Environment) (files : Files) :
    Files × Except String Config :=
  match Config.findDocument environment files with
  | (files, .error error) => (files, .error error.message)
  | (files, .ok path) => (files, (Config.load files path).mapError (·.message))

/-- Saves the configuration where the environment leads to. -/
def saveConfig (environment : Config.Environment) (files : Files) (config : Config) : Files :=
  match Config.findDocument environment files with
  | (files, .error _) => files
  | (files, .ok path) => (config.save files path).1

/-- The profile to use, by its name. -/
def selectedProfile (config : Config) (name : Option String) : Except ProfileError Profile :=
  match name with
  | some name => config.profile name
  | none => config.activeProfile

/-- Keeps a token that has changed for the next time. -/
def keepToken (environment : Config.Environment) (config : Config) (name : String)
    (before : Profile) (world : World) : World :=
  if world.profile.token = before.token then world
  else
    { world with files := saveConfig environment world.files (config.upsert name world.profile) }

/-- Runs a command with a profile. -/
def runWith (invocation : Invocation) (environment : Config.Environment) (config : Config)
    (profile : Profile) (now : Nat) (world : World) : Outcome × World :=
  match Client.ofSettings { showsCommands := invocation.curl } .profile .logged with
  | .error error => (complaint CommandError.failure error.message, world)
  | .ok client =>
    match { world with profile := profile }.run
        (invocation.command.run client invocation.quiet now) with
    | (none, world) => (⟨aborted, "", clockMessage ++ "\n"⟩, world)
    | (some result, world) =>
      let name := invocation.profile.getD config.currentProfile
      (Command.outcome result, keepToken environment config name profile world)

/-- Runs what a command line asks for. -/
def runInvocation (invocation : Invocation) (environment : Config.Environment) (now : Nat)
    (world : World) : Outcome × World :=
  let environment := { environment with choice := invocation.config }
  let files := prepareLogs environment world.files
  let (files, loaded) := loadConfig environment files
  let world := { world with files := files }
  match loaded with
  | .error message => (complaint CommandError.failure message, world)
  | .ok config =>
    match selectedProfile config invocation.profile with
    | .error error => (complaint CommandError.invalidInput error.message, world)
    | .ok profile =>
      match profile.baseUrl with
      | .error error => (complaint CommandError.failure error.message, world)
      | .ok _ => runWith invocation environment config profile now world

/-- The file that a command takes what it sends from. -/
def dataFile? : Command → Option String
  | .post _ body _ => body.dataFile
  | .put _ body _ => body.dataFile
  | .patch _ body _ => body.dataFile
  | .request _ _ body _ => body.dataFile
  | _ => none

/-- The paths of the files that a command line has to do with, apart from
those for responses. -/
def involvedPaths (invocation : Invocation) (environment : Config.Environment) : List String :=
  let environment := { environment with choice := invocation.config }
  let kept := match Config.directory? environment with
    | none => []
    | some directory =>
      let document := Files.join directory "config.toml"
      [Files.join directory "logs", document, Config.temporaryPath document]
  kept ++ (dataFile? invocation.command).toList

/-- Runs the program with its arguments. What is shown about the arguments
themselves is left to the one who reads them. -/
def run (arguments : List String) (environment : Config.Environment) (now : Nat)
    (world : World) : Except Command.Refusal (Outcome × World) := do
  return runInvocation (← Command.read arguments) environment now world

end PlatformClient.Launch
