import PlatformClient.Files.Places
import PlatformClient.Launch

namespace PlatformClient.Main

/-- What is shown about the arguments where they are not understood. -/
def usage : String := "Usage: obsctl [OPTIONS] <COMMAND>"

/-- What lies at a place, if anything. What is there and has no content that
can be read is a directory. -/
def entryAt (location : Files.Location) : IO (Option Files.Entry) := do
  match ← (IO.FS.readBinFile (Files.pathOf location)).toBaseIO with
  | .ok content => return some (.file content.toList)
  | .error _ =>
    match ← (IO.FS.realPath (Files.pathOf location)).toBaseIO with
    | .ok _ => return some .directory
    | .error _ => return none

/-- The entries at some places. -/
def readFiles (workingDirectory : Files.Location) (places : List Files.Location) : IO Files :=
  places.foldlM (fun files location => do
    match ← entryAt location with
    | some entry => return files.put location entry
    | none => return files) (Files.emptyAt workingDirectory)

/-- Brings entries to the places where they belong, a directory before what
lies in it. -/
def writeEntries (entries : List (Files.Location × Files.Entry)) : IO Unit :=
  entries.forM fun (location, entry) =>
    match entry with
    | .directory => IO.FS.createDirAll (Files.pathOf location)
    | .file content => IO.FS.writeBinFile (Files.pathOf location) ⟨content.toArray⟩

def readEnvironment : IO Config.Environment := do
  return {
    configDirectory := ← IO.getEnv "OBSCTL_CONFIG_DIR"
    userConfigHome := ← IO.getEnv "XDG_CONFIG_HOME"
    home := ← IO.getEnv "HOME" }

/-- Runs a command line on the files of this machine, from which no platform
can be reached. -/
def runOnMachine (invocation : Invocation) : IO Outcome := do
  let environment ← readEnvironment
  let directory := (Files.Route.ofPath (← IO.currentDir).toString).parts.filter (· ≠ "")
  let places := (Launch.involvedPaths invocation environment).flatMap (Files.places directory)
  let files ← readFiles directory (places.filter (· ≠ []))
  let now := (← IO.monoMsNow) / 1000
  let (outcome, world) :=
    Launch.runInvocation invocation environment now ⟨{}, files, .unconnected, [], [], []⟩
  writeEntries (world.files.changesSince files)
  return outcome

/-- Shows what comes of refused arguments. -/
def showRefusal (refusal : Command.Refusal) : IO Unit :=
  match refusal with
  | .version => IO.print Launch.versionText
  | .help => IO.println usage
  | _ => IO.eprintln usage

end PlatformClient.Main

/-- Runs the command line. -/
def main (arguments : List String) : IO UInt32 := do
  match PlatformClient.Command.read arguments with
  | .error refusal =>
    PlatformClient.Main.showRefusal refusal
    return refusal.exitCode.toUInt32
  | .ok invocation =>
    let outcome ← PlatformClient.Main.runOnMachine invocation
    IO.print outcome.output
    IO.eprint outcome.errors
    return outcome.exitCode.toUInt32
