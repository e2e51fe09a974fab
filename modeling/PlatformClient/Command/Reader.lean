import PlatformClient.Command.Basic
import PlatformClient.Command.Scan

namespace PlatformClient.Command

/-- The options that may be given in front of a command and behind it. -/
def globalFlags : List Flag := [.config, .profile, .curl, .quiet, .verbose]

def callFlags : List Flag := [.header, .expect, .output, .timeout]

def bodyFlags : List Flag := [.data, .dataFile, .contentType]

/-- The commands by name. -/
inductive Name where
  | get
  | delete
  | post
  | put
  | patch
  | request
  | login
  deriving DecidableEq, Repr

namespace Name

def text : Name → String
  | .get => "get"
  | .delete => "delete"
  | .post => "post"
  | .put => "put"
  | .patch => "patch"
  | .request => "request"
  | .login => "login"

def all : List Name := [.get, .delete, .post, .put, .patch, .request, .login]

def ofText? (text : String) : Option Name := all.find? (·.text == text)

theorem ofText?_text (name : Name) : ofText? name.text = some name := by
  cases name <;> decide

/-- The options of a command's own. -/
def ownFlags : Name → List Flag
  | .get => .accept :: callFlags
  | .delete => callFlags
  | .login => []
  | _ => bodyFlags ++ callFlags

/-- How many arguments a command needs. -/
def positionals : Name → Nat
  | .login => 0
  | .request => 2
  | _ => 1

/-- What can be given behind the name of a command. -/
def level (name : Name) : Level where
  flags := name.ownFlags ++ globalFlags ++ [.help]
  positionals := name.positionals
  subcommands := []

end Name

/-- The command that shows help. -/
def helpName : String := "help"

/-- What can be given in front of the name of a command. -/
def topLevel : Level where
  flags := globalFlags ++ [.help, .version]
  positionals := 0
  subcommands := Name.all.map Name.text ++ [helpName]

/-- Help is shown for a command, or for all of them. -/
def helpRefusal : List String → Refusal
  | [] => .help
  | [name] => if topLevel.subcommands.contains name then .help else .unknownSubcommand
  | _ => .unknownSubcommand

def callFlagsOf (scan : Scan) : CallFlags where
  headers := scan.values .header
  expected := (scan.values .expect).filterMap readStatus
  output := scan.value? .output
  timeout := scan.value? .timeout >>= readSeconds

def bodyFlagsOf (scan : Scan) : BodyFlags where
  data := scan.value? .data
  dataFile := scan.value? .dataFile
  contentType := scan.value? .contentType

/-- The command that its arguments make, where there are enough of them. -/
def Name.build (name : Name) (scan : Scan) : Except Refusal Command :=
  match name, scan.positionals with
  | .get, [path] => .ok (.get path (scan.value? .accept) (callFlagsOf scan))
  | .delete, [path] => .ok (.delete path (callFlagsOf scan))
  | .post, [path] => .ok (.post path (bodyFlagsOf scan) (callFlagsOf scan))
  | .put, [path] => .ok (.put path (bodyFlagsOf scan) (callFlagsOf scan))
  | .patch, [path] => .ok (.patch path (bodyFlagsOf scan) (callFlagsOf scan))
  | .request, [method, path] => .ok (.request method path (bodyFlagsOf scan) (callFlagsOf scan))
  | .login, [] => .ok .login
  | _, _ => .error .missingArgument

/-- Reads the arguments behind the name of a command. What is sent is given in one
way only. That both ways are used is refused before anything is found missing. -/
def Name.read (name : Name) (arguments : List String) : Except Refusal (Command × Scan) := do
  let (scan, _) ← Scan.arguments name.level {} arguments
  let scan ← scan.settle
  if scan.has .data ∧ scan.has .dataFile then throw .conflict
  return (← name.build scan, scan)

/-- Reads the arguments of a whole command line. An option given both in front of
the command and behind it counts as it is behind. The last option in front is
checked only after what comes behind the name. -/
def read (arguments : List String) : Except Refusal Invocation := do
  match ← Scan.arguments topLevel {} arguments with
  | (scan, none) =>
    let scan ← scan.settle
    throw (if scan.given.isEmpty then .nothingGiven else .missingSubcommand)
  | (scan, some (text, rest)) =>
    match Name.ofText? text with
    | none => throw (helpRefusal rest)
    | some name =>
      let (command, inner) ← name.read rest
      let scan ← scan.settle
      return {
        config := (inner.value? .config).or (scan.value? .config)
        profile := (inner.value? .profile).or (scan.value? .profile)
        curl := inner.has .curl || scan.has .curl
        quiet := inner.has .quiet || scan.has .quiet
        verbose := inner.has .verbose || scan.has .verbose
        command }

end PlatformClient.Command
