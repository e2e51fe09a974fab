import PlatformClient.Text.Utf8

namespace PlatformClient.Http

/-- The characters of method names and header names. -/
def isTokenChar (c : Char) : Bool :=
  c.isAlphanum || c == '!' || c == '#' || c == '$' || c == '%' || c == '&' || c.toNat == 0x27 ||
    c == '*' || c == '+' || c == '-' || c == '.' || c == '^' || c == '_' || c.toNat == 0x60 ||
    c == '|' || c == '~'

/-- A method by its name, in which case counts. -/
structure Method where
  name : String
  deriving DecidableEq, Repr

namespace Method

def ofString? (s : String) : Option Method :=
  if ¬ s.toList.isEmpty ∧ s.toList.all isTokenChar then some ⟨s⟩ else none

def get : Method := ⟨"GET"⟩
def head : Method := ⟨"HEAD"⟩
def post : Method := ⟨"POST"⟩
def put : Method := ⟨"PUT"⟩
def patch : Method := ⟨"PATCH"⟩
def delete : Method := ⟨"DELETE"⟩

end Method

end PlatformClient.Http
