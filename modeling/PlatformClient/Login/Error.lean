import PlatformClient.Http.Exchange
import PlatformClient.Profile

namespace PlatformClient

/-- Why no token was obtained: something is missing from the profile, the exchange
came to nothing, or no token can be taken from the answer. -/
inductive LoginError where
  | notConfigured
  | notRefreshable (method : AuthMethod)
  | missingCredential (name : String) (method : AuthMethod)
  | profile (error : ProfileError)
  | exchange (failure : Http.Failure)
  | rejected (status : Http.Status) (body : String)
  | invalidResponse (why : String)
  deriving DecidableEq, Repr

def LoginError.message : LoginError → String
  | .notConfigured => "no authentication method is configured for this profile"
  | .notRefreshable method =>
    "auth method " ++ method.name ++
      " cannot obtain a new token; update the profile with a valid token"
  | .missingCredential name method =>
    "profile is missing " ++ name ++ " required for " ++ method.name ++ " login"
  | .profile error => error.message
  | .exchange failure => "token request failed: " ++ failure.message
  | .rejected status body =>
    "token request rejected with status " ++ status.describe ++ ": " ++ body
  | .invalidResponse why => "unexpected token response: " ++ why

end PlatformClient
