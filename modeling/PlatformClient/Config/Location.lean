import PlatformClient.Config.Store

namespace PlatformClient.Config

/-- What decides where the configuration is kept: a choice of the caller and the
variables of the environment. The choice is a directory too, not a file. -/
structure Environment where
  choice : Option String := none
  configDirectory : Option String := none
  userConfigHome : Option String := none
  home : Option String := none
  deriving DecidableEq, Repr

inductive LocationError where
  | uncreated (directory : String)
  | logDirectory
  | unknown
  deriving DecidableEq, Repr

def LocationError.message : LocationError → String
  | .uncreated directory => "Failed to create config directory " ++ Text.quote directory
  | .logDirectory => "Failed to create logs directory"
  | .unknown => "Could not determine user config directory"

def nonEmpty (text : Option String) : Option String := text.filter (!·.isEmpty)

/-- The directory in which users keep configurations, found by the environment
alone. Without a home in it there is none: the system's own record of its
users, which may still name one, is not looked at. -/
def userDirectory? (environment : Environment) : Option String :=
  match environment.userConfigHome.filter (·.toList.head? == some '/') with
  | some directory => some directory
  | none => (nonEmpty environment.home).map (Files.join · ".config")

/-- The directory of the configuration: the choice of the caller, else the first
that the environment gives. What lies there has no part in the choice. -/
def directory? (environment : Environment) : Option String :=
  match environment.choice with
  | some directory => some directory
  | none =>
    match nonEmpty environment.configDirectory with
    | some directory => some directory
    | none => (userDirectory? environment).map (Files.join · "obsctl")

/-- Creates a directory unless there is something under its path. That it is a
directory is not asked. -/
def ensureDirectory (files : Files) (directory : String) : Files × Except LocationError String :=
  if files.contains directory then (files, .ok directory)
  else match files.createDirectories directory with
    | (files, .ok ()) => (files, .ok directory)
    | (files, .error _) => (files, .error (.uncreated directory))

/-- Finds the directory of the configuration and makes sure that it is there. -/
def findDirectory (environment : Environment) (files : Files) :
    Files × Except LocationError String :=
  match directory? environment with
  | none => (files, .error .unknown)
  | some directory => ensureDirectory files directory

def findDocument (environment : Environment) (files : Files) :
    Files × Except LocationError String :=
  let (files, found) := findDirectory environment files
  (files, found.map (Files.join · "config.toml"))

/-- Finds the directory for logs and creates it. -/
def findLogDirectory (environment : Environment) (files : Files) :
    Files × Except LocationError String :=
  match findDirectory environment files with
  | (files, .error error) => (files, .error error)
  | (files, .ok directory) =>
    let logs := Files.join directory "logs"
    match files.createDirectories logs with
    | (files, .ok ()) => (files, .ok logs)
    | (files, .error _) => (files, .error .logDirectory)

end PlatformClient.Config
