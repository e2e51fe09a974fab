import PlatformClient.Call.Execution
import PlatformClient.Command.Basic

namespace PlatformClient

/-- Why what is given on the command line makes no call. -/
inductive InputError where
  | header (text : String)
  | method (text : String)
  | status (code : Nat)
  | body (error : Json.Error)
  | dataFile (path : String) (fault : Files.Fault)
  deriving DecidableEq, Repr

def InputError.message : InputError → String
  | .header text => "invalid header " ++ Text.quote text ++ ", expected NAME=VALUE"
  | .method text => "invalid HTTP method " ++ Text.quote text
  | .status code => "invalid expected status " ++ toString code
  | .body error => "request body is not valid JSON: " ++ error.message
  | .dataFile path fault =>
    "failed to read request body from " ++ Text.quote path ++ ": " ++ fault.message

/-- Why the options of a call cannot be made of what is given: the input is
refused, or the clock cannot hold the time at which the call is to be given
up. -/
inductive OptionsError where
  | input (error : InputError)
  | beyondClock
  deriving DecidableEq, Repr

/-- What is said where the clock cannot hold a time. -/
def clockMessage : String := "overflow when adding duration to instant"

/-- The seconds that the clock can count. -/
def clockLimit : Nat := 0x8000000000000000

namespace Command

/-- A header as it is written on the command line: its name, an equals sign,
and its value, each with blanks around it. -/
def readHeader (text : String) : Except InputError (String × String) :=
  match Text.splitFirst '=' text.toList with
  | none => .error (.header text)
  | some (name, value) =>
    let name := Text.trimChars name
    if name.isEmpty then .error (.header text)
    else .ok (String.ofList name, String.ofList (Text.trimChars value))

/-- The headers in the order given. The last of one name counts. -/
def readHeaders (texts : List String) : Except InputError CallerHeaders :=
  texts.foldlM (fun (headers : CallerHeaders) text =>
    (readHeader text).map fun (name, value) => headers.set name value) []

def readStatuses (codes : List Nat) : Except InputError (List Http.Status) :=
  codes.mapM fun code =>
    match Http.Status.ofNat? code with
    | some status => .ok status
    | none => .error (.status code)

/-- The options of a call made at some second of the clock. Headers are looked at
before statuses, and the clock last. -/
def callOptions (call : CallFlags) (quiet : Bool) (now : Nat) : Except OptionsError CallOptions := do
  let headers ← (readHeaders call.headers).mapError .input
  let expected ← (readStatuses call.expected).mapError .input
  let options : CallOptions := { headers, expected, quiet, cancellable := true }
  let options := match call.output with
    | some fileName => options.saveTo fileName
    | none => options
  match call.timeout with
  | none => return options
  | some seconds =>
    if clockLimit ≤ now + seconds then throw .beyondClock
    else return { options with timeLimit := some seconds }

/-- What is sent: bytes as they are if their type is given, else the document that
they hold. An empty text is a type that is given here. -/
def bodyOf (flags : BodyFlags) (content : Bytes) : Except InputError CallBody :=
  if flags.contentType.isSome then .ok (.bytes content)
  else match Json.read content with
    | .ok value => .ok (.document value)
    | .error error => .error (.body error)

/-- Finds what is sent, on the command line or in a file. The file is not looked at
where something is given on the command line. -/
def readBody (flags : BodyFlags) : Attempt InputError (Option CallBody) := do
  match flags.data, flags.dataFile with
  | some data, _ => return some (← ExceptT.mk (pure (bodyOf flags (Text.encode data))))
  | none, some path =>
    match ← Program.readFile path with
    | .error fault => throw (.dataFile path fault)
    | .ok content => return some (← ExceptT.mk (pure (bodyOf flags content)))
  | none, none => return none

/-- The method of a name written in any case. -/
def readMethod (text : String) : Except InputError Http.Method :=
  match Http.Method.ofString? (String.ofList (text.toList.map Char.toUpper)) with
  | some method => .ok method
  | none => .error (.method text)

end Command

end PlatformClient
