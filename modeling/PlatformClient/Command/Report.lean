import PlatformClient.Command.Input

namespace PlatformClient

/-- Why a command failed. -/
inductive CommandError where
  | input (error : InputError)
  | call (error : CallError)
  | loginCancelled
  | other (why : String)

namespace CommandError

def message : CommandError → String
  | .input error => error.message
  | .call error => error.message
  | .loginCancelled => "login cancelled"
  | .other why => why

def problem? : CommandError → Option Problem
  | .call error => error.problem?
  | _ => none

/-- The lines that say more about a problem. -/
def problemLines (problem : Problem) : List String :=
  (if problem.type.isEmpty then [] else ["  type: " ++ problem.type]) ++
    (if problem.occurrence.isEmpty then [] else ["  instance: " ++ problem.occurrence]) ++
    problem.extensions.map fun (name, value) => "  " ++ name ++ ": " ++ value.compact

/-- What is written about a failure. -/
def report (error : CommandError) : String :=
  let lines := match error.problem? with
    | some problem => problemLines problem
    | none => []
  "\n".intercalate (("Error: " ++ error.message) :: lines)

/-- The exit codes of a command. -/
def success : Nat := 0
def failure : Nat := 1
def notFound : Nat := 2
def invalidInput : Nat := 3
def notAuthorized : Nat := 4

def exitCode : CommandError → Nat
  | .input _ => invalidInput
  | .call error =>
    if error.isAuthFailure then notAuthorized
    else if error.status? = some Http.notFound then notFound
    else match error with
      | .construction .. => invalidInput
      | _ => failure
  | _ => failure

end CommandError

end PlatformClient
