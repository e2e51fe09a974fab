import PlatformClient.Problem.Basic

namespace PlatformClient

/-- What a response without success says. -/
structure StatusError where
  status : Http.Status
  message : String
  problem : Option Problem

namespace StatusError

def display (error : StatusError) : String :=
  match error.problem with
  | some problem => error.message ++ ": " ++ problem.display
  | none => error.message

/-- A body that is a problem, whose status is that of the response unless it names
one itself. Most objects are problems, as none of their fields is needed, and `null`
is one that says nothing. -/
def ofProblem? (status : Http.Status) (body : Bytes) : Option StatusError := do
  let problem := (← (Problem.readNullable body).toOption).getD {}
  let problem := if problem.status = 0 then { problem with status := status.code } else problem
  return ⟨status, status.reason, some problem⟩

/-- A body that is any document. -/
def ofDocument? (status : Http.Status) (body : Bytes) : Option StatusError := do
  let document ← (Json.read body).toOption
  return ⟨status,
    "status " ++ toString status.code ++ ", error response: " ++ document.compact, none⟩

/-- A body that is text, or the phrase of the status where there is no text. Broken
bytes are replaced, so this reading always applies. -/
def ofText? (status : Http.Status) (body : Bytes) : Option StatusError :=
  let text := Text.decodeLossy body
  let text := if text.isEmpty then status.reason else text
  some ⟨status, "status: " ++ toString status.code ++ " " ++ text, none⟩

/-- The readings of a body, from the most special one on. Each is tried on the whole
body. -/
def readings : List (Http.Status → Bytes → Option StatusError) := [ofProblem?, ofDocument?, ofText?]

/-- What is said where no reading applies. -/
def unread (status : Http.Status) : StatusError := ⟨status, "status: " ++ toString status.code, none⟩

/-- The first reading of a body that applies. -/
def classify (status : Http.Status) (body : Bytes) : StatusError :=
  (readings.findSome? fun reading => reading status body).getD (unread status)

end StatusError

end PlatformClient
