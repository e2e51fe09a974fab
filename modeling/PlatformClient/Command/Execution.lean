import PlatformClient.Command.Report

namespace PlatformClient

/-- How a command ends for the one who gave it. -/
structure Outcome where
  exitCode : Nat
  output : String := ""
  errors : String := ""
  deriving DecidableEq, Repr, Inhabited

namespace Payload

/-- A body laid out as a document, or as it is where it is none. -/
def formatBody (body : Bytes) : String :=
  match Json.read body with
  | .ok value => value.pretty
  | .error _ => Text.decodeLossy body

/-- What is shown of a payload, if anything. A document is laid out anew, whatever
its layout was. -/
def format? : Payload → Option String
  | .document body => some (formatBody body)
  | .empty => none
  | .saved path => some ("Saved response to " ++ path)

end Payload

namespace Command

/-- What a command gives to show, or why it failed. There is nothing to show
of some successes. -/
abbrev Result := Except CommandError (Option String)

/-- What is shown of a document. -/
def shown (result : Except CallError (Option Json)) : Result :=
  (result.mapError .call).map (·.map Json.pretty)

/-- Asks for a document, or for whatever is named by `accept`. -/
def runGet (client : Client) (path : String) (accept : Option String) (options : CallOptions) :
    Program Result := do
  match accept with
  | some type =>
    let options := { options with headers := options.headers.set "accept" type }
    let (_, result) ← Call.execute client ⟨.get, path, none⟩ options
    return (result.mapError .call).map Payload.format?
  | none =>
    let (_, result) ← Call.document client .get path none options
    return shown result

def runDelete (client : Client) (path : String) (options : CallOptions) : Program Result := do
  let (_, result) ← Call.delete client path options
  return (result.mapError .call).map fun () => none

/-- Sends bytes of a type. What comes back has to be a document where they are
posted. -/
def runBytes (client : Client) (method : Http.Method) (path : String) (content : Bytes)
    (type : Option String) (options : CallOptions) : Program Result := do
  let options := match type with
    | some type => { options with headers := options.headers.set "content-type" type }
    | none => options
  if method = .post then
    let (_, result) ← Call.post client path content options
    return shown result
  else
    let (_, result) ← Call.execute client ⟨method, path, some (.bytes content)⟩ options
    return (result.mapError .call).map Payload.format?

/-- Sends what is given, if anything is. -/
def runWithBody (client : Client) (method : Http.Method) (path : String) (body : BodyFlags)
    (options : CallOptions) : Program Result := do
  match ← (readBody body).run with
  | .error error => return .error (.input error)
  | .ok (some (.bytes content)) => runBytes client method path content body.contentType options
  | .ok (some (.document value)) =>
    let (_, result) ← Call.document client method path (some (.ok value)) options
    return shown result
  | .ok none =>
    let (_, result) ← Call.document client method path none options
    return shown result

def runLogin (client : Client) : Program Result := do
  match ← client.logIn.run with
  | .error (.failed error) => return .error (.call error)
  | .error (.interrupted _) => return .error .loginCancelled
  | .ok () =>
    let profile ← Program.readProfile
    return .ok (some ("Logged in (" ++ profile.authMethod.name ++ ")"))

/-- Goes on with the options of a call. Where the clock cannot hold its end, there
is no result at all, and where they are refused, nothing has happened yet. -/
def withOptions (call : CallFlags) (quiet : Bool) (now : Nat)
    (next : CallOptions → Program Result) : Program (Option Result) :=
  match callOptions call quiet now with
  | .ok options => do return some (← next options)
  | .error (.input error) => return some (.error (.input error))
  | .error .beyondClock => return none

/-- Runs a command at some second of the clock. Nothing else of the time is known to
it. -/
def run (client : Client) (quiet : Bool) (now : Nat) : Command → Program (Option Result)
  | .get path accept call => withOptions call quiet now (runGet client path accept)
  | .delete path call => withOptions call quiet now (runDelete client path)
  | .post path body call => withOptions call quiet now (runWithBody client .post path body)
  | .put path body call => withOptions call quiet now (runWithBody client .put path body)
  | .patch path body call => withOptions call quiet now (runWithBody client .patch path body)
  | .request method path body call =>
    match readMethod method with
    | .error error => return some (.error (.input error))
    | .ok method => withOptions call quiet now (runWithBody client method path body)
  | .login => do return some (← runLogin client)

/-- A result as it is written. -/
def outcome : Result → Outcome
  | .ok none => ⟨CommandError.success, "", ""⟩
  | .ok (some text) => ⟨CommandError.success, text ++ "\n", ""⟩
  | .error error => ⟨error.exitCode, "", error.report ++ "\n"⟩

end Command

end PlatformClient
