namespace PlatformClient

/-- The options that all commands with calls have. -/
structure CallFlags where
  headers : List String := []
  expected : List Nat := []
  output : Option String := none
  timeout : Option Nat := none
  deriving DecidableEq, Repr, Inhabited

/-- The options for what is sent. -/
structure BodyFlags where
  data : Option String := none
  dataFile : Option String := none
  contentType : Option String := none
  deriving DecidableEq, Repr, Inhabited

/-- What the caller asks for on the command line. -/
inductive Command where
  | get (path : String) (accept : Option String) (call : CallFlags)
  | delete (path : String) (call : CallFlags)
  | post (path : String) (body : BodyFlags) (call : CallFlags)
  | put (path : String) (body : BodyFlags) (call : CallFlags)
  | patch (path : String) (body : BodyFlags) (call : CallFlags)
  | request (method path : String) (body : BodyFlags) (call : CallFlags)
  | login
  deriving DecidableEq, Repr, Inhabited

/-- A command and the options that are the same for all of them. -/
structure Invocation where
  config : Option String := none
  profile : Option String := none
  curl : Bool := false
  quiet : Bool := false
  verbose : Bool := false
  command : Command
  deriving DecidableEq, Repr, Inhabited

end PlatformClient
