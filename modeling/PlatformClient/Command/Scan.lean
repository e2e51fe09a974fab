import PlatformClient.Command.Flag
import PlatformClient.Text.Blank

namespace PlatformClient.Command

/-- What can be given at one place of the command line: which options, how
many arguments without one, and which commands may follow. -/
structure Level where
  flags : List Flag
  positionals : Nat
  subcommands : List String
  deriving DecidableEq, Repr

/-- What has been given so far. A value that follows its option is checked only when
something else is given, or at the end. -/
structure Scan where
  given : List (Flag × Option String) := []
  positionals : List String := []
  pending : Option (Flag × Option String) := none
  /-- The last argument was an option whose value is to follow. -/
  awaiting : Bool := false
  /-- Two hyphens have been given; nothing behind them is an option. -/
  literal : Bool := false
  deriving DecidableEq, Repr

namespace Scan

def has (scan : Scan) (flag : Flag) : Bool := scan.given.any (·.1 == flag)

/-- Takes an option with the value given with it. Only an option that may be
repeated can be given again. -/
def take (scan : Scan) (flag : Flag) (value : Option String) : Except Refusal Scan := do
  if flag.hasValue then
    match value with
    | none => throw .noValue
    | some _ => pure ()
  if flag = .help then throw .help
  if flag = .version then throw .version
  if flag.arity ≠ .repeated ∧ scan.has flag then throw .conflict
  match value with
  | some text => flag.check text
  | none => pure ()
  return { scan with given := scan.given ++ [(flag, value)] }

/-- Takes the option whose value followed it. -/
def settle (scan : Scan) : Except Refusal Scan :=
  match scan.pending with
  | none => .ok scan
  | some (flag, value) => { scan with pending := none }.take flag value

/-- An option, with the value that stands in the same argument. Without one, an
option that needs a value waits for it, and the next argument is its value unless
that looks like an option. -/
def option (scan : Scan) (flag : Flag) (value : Option String) : Except Refusal Scan := do
  let scan ← scan.settle
  if flag.hasValue ∧ value.isNone then
    return { scan with pending := some (flag, none), awaiting := true }
  else return { (← scan.take flag value) with awaiting := false }

/-- An option by its name, behind two hyphens. -/
def longOption (level : Level) (scan : Scan) (cs : List Char) : Except Refusal Scan :=
  let (name, value) := match Text.splitFirst '=' cs with
    | some (name, value) => (String.ofList name, some (String.ofList value))
    | none => (String.ofList cs, none)
  match level.flags.find? (·.long == name) with
  | none => .error .unknownArgument
  | some flag =>
    if ¬ flag.hasValue ∧ value.isSome then .error .tooManyValues
    else scan.option flag value

/-- Options by their letters, behind one hyphen. The first that has a value
takes what is left of the argument for it. -/
def shortOptions (level : Level) : Scan → List Char → Except Refusal Scan
  | scan, [] => .ok scan
  | scan, c :: rest =>
    match level.flags.find? (·.short? == some c) with
    | none => .error .unknownArgument
    | some flag =>
      if flag.hasValue then
        match rest with
        | [] => scan.option flag none
        | '=' :: value => scan.option flag (some (String.ofList value))
        | value => scan.option flag (some (String.ofList value))
      else do shortOptions level (← scan.option flag none) rest

/-- What an argument is refused for where no more of its kind are taken. -/
def refusalOf (level : Level) (scan : Scan) (argument : String) : Refusal :=
  if level.subcommands.isEmpty then .unknownArgument
  else if scan.literal ∧ level.subcommands.contains argument then .unknownArgument
  else .unknownSubcommand

def positional (level : Level) (scan : Scan) (argument : String) : Except Refusal Scan :=
  if scan.positionals.length < level.positionals then
    return { (← scan.settle) with positionals := scan.positionals ++ [argument] }
  else .error (refusalOf level scan argument)

/-- A value or an argument without option. Behind two hyphens nothing is waited for
any more. -/
def plain (level : Level) (scan : Scan) (argument : String) : Except Refusal Scan :=
  match scan.awaiting && !scan.literal, scan.pending with
  | true, some (flag, _) =>
    .ok { scan with pending := some (flag, some argument), awaiting := false }
  | _, _ => positional level scan argument

/-- One argument that is no command. -/
def argument (level : Level) (scan : Scan) (text : String) : Except Refusal Scan :=
  if scan.literal then plain level scan text
  else match text.toList with
    | ['-', '-'] => .ok { scan with literal := true }
    | '-' :: '-' :: cs => longOption level scan cs
    | ['-'] => plain level scan text
    | '-' :: cs => shortOptions level scan cs
    | _ => plain level scan text

/-- Goes through arguments, up to the first that is a command. -/
def arguments (level : Level) : Scan → List String →
    Except Refusal (Scan × Option (String × List String))
  | scan, [] => .ok (scan, none)
  | scan, text :: rest =>
    if ¬ scan.literal ∧ ¬ scan.awaiting ∧ level.subcommands.contains text then
      .ok (scan, some (text, rest))
    else do arguments level (← argument level scan text) rest

/-- The last value of an option; of an option that is given once there is no other. -/
def value? (scan : Scan) (flag : Flag) : Option String :=
  (scan.given.reverse.find? (·.1 == flag)).bind (·.2)

/-- All values of an option. -/
def values (scan : Scan) (flag : Flag) : List String :=
  (scan.given.filter (·.1 == flag)).filterMap (·.2)

end Scan

end PlatformClient.Command
