import PlatformClient.Call.Error
import PlatformClient.Call.Options
import PlatformClient.Call.Program

namespace PlatformClient

/-- What a call with success gives. -/
inductive Payload where
  /-- A body that should be a document. -/
  | document (body : Bytes)
  | empty
  /-- The body has been written to a file. -/
  | saved (path : String)
  deriving DecidableEq, Repr

namespace Payload

/-- The types of responses that are files. -/
def fileTypes : List String := ["application/octet-stream", "application/zip"]

/-- The type of a response without its parameters; the empty text where the response
states none that can be read. The case of its letters counts. -/
def contentType (headers : Http.Headers) : String :=
  match headers.get? .contentType >>= Http.readableValue? with
  | none => ""
  | some value =>
    String.ofList (Text.trimChars ((Text.splitAll ';' value.toList).headD []))

/-- What to do with the body of a response. -/
inductive Handling where
  | pass (payload : Payload)
  | save (path : String)
  | refuse (misuse : Misuse)
  deriving DecidableEq, Repr

/-- A deletion gives nothing, whatever is sent back. A file is saved under the name
that the caller gave, and without one it is refused, even where its body is empty.
The body of a response that points elsewhere is never a document. -/
def handling (method : Http.Method) (headers : CallerHeaders) (response : Http.Response) :
    Handling :=
  let type := contentType response.headers
  if method = .delete then .pass .empty
  else if fileTypes.contains type then
    match (headers.get? fileNameHeader).filter (!·.isEmpty) with
    | some path => .save path
    | none => .refuse (.noFileName type)
  else if response.body.isEmpty ∨ response.status = Http.seeOther then .pass .empty
  else .pass (.document response.body)

/-- The payload of a response with success. That a file cannot be written is a
failure of the call, although the platform has done its part. -/
def ofResponse (method : Http.Method) (headers : CallerHeaders) (response : Http.Response) :
    Attempt CallError Payload := do
  match handling method headers response with
  | .pass payload => return payload
  | .refuse misuse => throw (.misuse misuse)
  | .save path =>
    match ← Program.writeFile path response.body with
    | .error fault => throw (.unsaved path fault)
    | .ok () =>
      Program.log .info "Saved response payload"
      return .saved path

/-- Reads the document in a payload, where there is one. What has been saved is not
looked into. -/
def decode : Payload → Except CallError (Option Json)
  | .document body =>
    match Json.read body with
    | .ok value => .ok (some value)
    | .error error => .error (.ofUndecoded error body)
  | .empty => .ok none
  | .saved _ => .ok none

end Payload

end PlatformClient
