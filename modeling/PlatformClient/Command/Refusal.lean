namespace PlatformClient.Command

/-- Why arguments are not taken for a command, or what is shown instead of
running one. -/
inductive Refusal where
  | unknownArgument
  | missingArgument
  | conflict
  | noValue
  | badValue
  | tooManyValues
  | unknownSubcommand
  | missingSubcommand
  | nothingGiven
  | help
  | version
  deriving DecidableEq, Repr

/-- What was asked for is no failure. -/
def Refusal.exitCode : Refusal → Nat
  | .help => 0
  | .version => 0
  | _ => 2

end PlatformClient.Command
