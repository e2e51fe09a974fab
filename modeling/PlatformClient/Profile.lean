import PlatformClient.Text.Quoted
import PlatformClient.Url.Reader

namespace PlatformClient

/-- How the requests made with a profile are authenticated. -/
inductive AuthMethod where
  | none
  | jwt
  | servicePrincipal
  | local
  deriving DecidableEq, Repr, Inhabited

namespace AuthMethod

def name : AuthMethod → String
  | .none => "none"
  | .jwt => "jwt"
  | .servicePrincipal => "service-principal"
  | .local => "local"

def all : List AuthMethod := [.none, .jwt, .servicePrincipal, .local]

def ofName? (name : String) : Option AuthMethod := all.find? (·.name == name)

theorem ofName?_name (method : AuthMethod) : ofName? method.name = some method := by
  cases method <;> decide

end AuthMethod

/-- The identity that a platform on the same machine takes on trust. -/
structure LocalIdentity where
  principalType : String := ""
  principalId : String := ""
  tenantId : String := ""
  deriving DecidableEq, Repr, Inhabited

/-- Where the platform is and how one logs in there. An empty text stands for
one that is not set. -/
structure Profile where
  url : String := ""
  authMethod : AuthMethod := .none
  token : String := ""
  tenantId : String := ""
  clientId : String := ""
  clientSecret : String := ""
  identity : LocalIdentity := {}
  deriving DecidableEq, Repr, Inhabited

/-- Why a profile cannot be used. -/
inductive ProfileError where
  | invalidUrl (url : String) (why : Url.ReadError)
  | notFound (name : String)
  deriving DecidableEq, Repr

def ProfileError.message : ProfileError → String
  | .invalidUrl url why =>
    "Failed to parse the url provided in profile (" ++ Text.quote url ++ "): " ++ why.message
  | .notFound name => "Profile " ++ Text.quote name ++ " not found"

namespace Profile

def baseUrl (profile : Profile) : Except ProfileError Url :=
  (Url.read profile.url).mapError (.invalidUrl profile.url)

def hasToken (profile : Profile) : Bool := !profile.token.isEmpty

end Profile

end PlatformClient
