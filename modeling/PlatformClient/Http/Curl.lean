import PlatformClient.Http.Exchange
import PlatformClient.Shell.Quote
import PlatformClient.Text.Blank

namespace PlatformClient.Http.Curl

/-- What is shown in place of the authorization of a request. -/
def redactedAuthorization : String := "Bearer REDACTED"

/-- What is shown in place of an upload of several parts. -/
def redactedUpload : String := "@/file/path/REDACTED"

def capitalized : List Char → List Char
  | [] => []
  | c :: rest => c.toUpper :: rest

/-- The name of a header with the first letter of every word in upper case. -/
def displayName (name : HeaderName) : String :=
  String.ofList <| List.intercalate ['-'] <|
    (Text.splitAll '-' name.text.toList).map capitalized

def isMultipart (request : Request) : Bool :=
  match request.headers.get? .contentType >>= readableValue? with
  | some type => "multipart/form-data".toList.isPrefixOf type.toList
  | none => false

/-- The text given with the option `-d`, where there is one. -/
def data? (request : Request) : Option String :=
  if isMultipart request then some redactedUpload else request.body.map Text.decodeLossy

/-- Pairs of texts in the order of the first and then of the second. -/
def precedes (a b : String × String) : Bool :=
  a.1 < b.1 || (a.1 == b.1 && !(b.2 < a.2))

/-- The headers that are shown, sorted, with the authorization hidden. -/
def shownHeaders (headers : Headers) : List (String × String) :=
  let others := headers.lines.filter fun line => line.1 ≠ .authorization
  let shown := others.map fun (name, value) => (displayName name, Text.decodeLossy value)
  (shown ++ [("Authorization", redactedAuthorization)]).mergeSort precedes

/-- The words of the command, the ones that are not plain quoted. -/
def words (request : Request) : List (List Char) :=
  let data := match data? request with
    | none => []
    | some text => ["-d".toList, Shell.quote text.toList]
  let headers := (shownHeaders request.headers).flatMap fun (name, value) =>
    ["-H".toList, Shell.quote (name.toList ++ ':' :: ' ' :: value.toList)]
  ["curl".toList, "-X".toList, Shell.quote request.method.name.toList] ++ data ++ headers ++
    [Shell.quote request.url.printChars]

/-- A command that sends the same request from a shell, apart from what is
hidden. -/
def command (request : Request) : String :=
  String.ofList (List.intercalate [' '] (words request))

end PlatformClient.Http.Curl
