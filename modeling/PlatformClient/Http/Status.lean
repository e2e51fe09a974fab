namespace PlatformClient.Http

/-- The status of a response, a number of three digits. -/
structure Status where
  code : Nat
  lower : 100 ≤ code
  upper : code < 1000
  deriving DecidableEq, Repr

namespace Status

def ofNat? (code : Nat) : Option Status :=
  if h : 100 ≤ code ∧ code < 1000 then some ⟨code, h.1, h.2⟩ else none

theorem ofNat?_code (status : Status) : ofNat? status.code = some status := by
  simp [ofNat?, status.lower, status.upper]

theorem code_of_ofNat? {code : Nat} {status : Status} (found : ofNat? code = some status) :
    status.code = code := by
  unfold ofNat? at found
  split at found
  · rw [← Option.some.inj found]
  · cases found

def isSuccess (status : Status) : Bool := 200 ≤ status.code && status.code < 300

/-- The phrases of the registered statuses. -/
def phrases : List (Nat × String) := [
  (100, "Continue"), (101, "Switching Protocols"), (102, "Processing"), (103, "Early Hints"),
  (200, "OK"), (201, "Created"), (202, "Accepted"), (203, "Non Authoritative Information"),
  (204, "No Content"), (205, "Reset Content"), (206, "Partial Content"), (207, "Multi-Status"),
  (208, "Already Reported"), (226, "IM Used"),
  (300, "Multiple Choices"), (301, "Moved Permanently"), (302, "Found"), (303, "See Other"),
  (304, "Not Modified"), (305, "Use Proxy"), (307, "Temporary Redirect"),
  (308, "Permanent Redirect"),
  (400, "Bad Request"), (401, "Unauthorized"), (402, "Payment Required"), (403, "Forbidden"),
  (404, "Not Found"), (405, "Method Not Allowed"), (406, "Not Acceptable"),
  (407, "Proxy Authentication Required"), (408, "Request Timeout"), (409, "Conflict"),
  (410, "Gone"), (411, "Length Required"), (412, "Precondition Failed"),
  (413, "Payload Too Large"), (414, "URI Too Long"), (415, "Unsupported Media Type"),
  (416, "Range Not Satisfiable"), (417, "Expectation Failed"), (418, "I'm a teapot"),
  (421, "Misdirected Request"), (422, "Unprocessable Entity"), (423, "Locked"),
  (424, "Failed Dependency"), (425, "Too Early"), (426, "Upgrade Required"),
  (428, "Precondition Required"), (429, "Too Many Requests"),
  (431, "Request Header Fields Too Large"), (451, "Unavailable For Legal Reasons"),
  (500, "Internal Server Error"), (501, "Not Implemented"), (502, "Bad Gateway"),
  (503, "Service Unavailable"), (504, "Gateway Timeout"), (505, "HTTP Version Not Supported"),
  (506, "Variant Also Negotiates"), (507, "Insufficient Storage"), (508, "Loop Detected"),
  (510, "Not Extended"), (511, "Network Authentication Required")]

/-- The phrase of a status, empty for one that is not registered. -/
def reason (status : Status) : String := (phrases.lookup status.code).getD ""

/-- A status with its phrase. -/
def describe (status : Status) : String :=
  toString status.code ++ " " ++ (phrases.lookup status.code).getD "<unknown status code>"

end Status

def seeOther : Status := ⟨303, by decide, by decide⟩
def unauthorized : Status := ⟨401, by decide, by decide⟩
def forbidden : Status := ⟨403, by decide, by decide⟩
def notFound : Status := ⟨404, by decide, by decide⟩

end PlatformClient.Http
