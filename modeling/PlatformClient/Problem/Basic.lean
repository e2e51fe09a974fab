import PlatformClient.Http.Status
import PlatformClient.Json.Expect
import PlatformClient.Json.Printer

namespace PlatformClient

/-- The description of a failure as the platform sends it. Texts that are
empty and a status that is zero are not set; whatever else the platform says is
kept in the extensions. -/
structure Problem where
  type : String := ""
  title : String := ""
  detail : String := ""
  status : Nat := 0
  occurrence : String := ""
  extensions : Json.Fields := []

namespace Problem

instance : Inhabited Problem := ⟨{}⟩

def display (problem : Problem) : String :=
  let title :=
    if ¬ problem.title.isEmpty then problem.title
    else if ¬ problem.type.isEmpty then problem.type
    else "unspecified problem"
  if problem.detail.isEmpty then title else title ++ ": " ++ problem.detail

/-- A text under a name, unless it is empty. -/
def textField (name value : String) : List (String × Json) :=
  if value.isEmpty then [] else [(name, .string value)]

/-- The fields of a problem in the order in which they are written. -/
def fields (problem : Problem) : List (String × Json) :=
  textField "type" problem.type ++ textField "title" problem.title ++
    textField "detail" problem.detail ++
    (if problem.status = 0 then [] else [("status", .number (.whole problem.status))]) ++
    textField "instance" problem.occurrence ++ problem.extensions

def encode (problem : Problem) : String := (Json.object problem.fields).compact

/-- What has been read of a problem: which of its own fields have been there, and
what they hold. A field that has been there is told apart from one that is not set,
since it may not occur again. -/
structure Draft where
  type : Option String := none
  title : Option String := none
  detail : Option String := none
  status : Option Nat := none
  occurrence : Option String := none
  extensions : Json.Fields := []

def Draft.finish (draft : Draft) : Problem where
  type := draft.type.getD ""
  title := draft.title.getD ""
  detail := draft.detail.getD ""
  status := draft.status.getD 0
  occurrence := draft.occurrence.getD ""
  extensions := draft.extensions

open Json in
/-- Reads the value of a field that may occur only once. -/
def takeOnce {α : Type} (earlier : Option α) (name : String) (reader : Reader α)
    (store : α → Draft) : Reader Draft := fun rest => do
  if earlier.isSome then failInObject (.duplicateField name) rest
  let (value, rest) ← reader (← colon rest)
  return (store value, rest)

open Json in
/-- Takes the member behind a name into a draft. Members of other names may occur
again, and the last of them counts. -/
def takeMember (draft : Draft) (name : String) : Reader Draft :=
  if name = "type" then
    takeOnce draft.type name expectString fun text => { draft with type := some text }
  else if name = "title" then
    takeOnce draft.title name expectString fun text => { draft with title := some text }
  else if name = "detail" then
    takeOnce draft.detail name expectString fun text => { draft with detail := some text }
  else if name = "status" then
    takeOnce draft.status name expectUInt16 fun status => { draft with status := some status }
  else if name = "instance" then
    takeOnce draft.occurrence name expectString fun text => { draft with occurrence := some text }
  else fun rest => do
    let (value, rest) ← value (depthLimit - 1) (← colon rest)
    return ({ draft with extensions := draft.extensions.insert name value }, rest)

open Json in
def reader : Reader Problem := fun rest =>
  match skipBlanks rest with
  | 0x7B :: rest =>
    (members takeMember (rest.length + 1) true {} rest).map fun (draft, rest) =>
      (draft.finish, rest)
  | rest => unexpected "struct Problem" rest

/-- Reads the problem that a body consists of, with nothing but blanks behind it. -/
def read (body : Bytes) : Except Json.Error Problem := Json.readWith reader body

open Json in
/-- Reads a body that may also consist of `null`, which describes nothing. -/
def readNullable (body : Bytes) : Except Json.Error (Option Problem) :=
  let nullable : Reader (Option Problem) := fun rest =>
    match skipBlanks rest with
    | 0x6E :: rest => letters none ['u', 'l', 'l'] rest
    | rest => (reader rest).map fun (problem, rest) => (some problem, rest)
  readWith nullable body

end Problem

end PlatformClient
