import PlatformClient.Http.Headers
import PlatformClient.Profile
import PlatformClient.Text.Base64

namespace PlatformClient.LocalIdentity

def principalTypeHeader : Http.HeaderName := ⟨"appd-pty"⟩
def principalIdHeader : Http.HeaderName := ⟨"appd-pid"⟩
def tenantIdHeader : Http.HeaderName := ⟨"appd-tid"⟩

/-- Adds the headers that name an identity, and says whether all of them could
be set. The tenant is sent as it is, and may be no value of a header. -/
def addTo (identity : LocalIdentity) (headers : Http.Headers) : Http.Headers × Bool :=
  let encoded (text : String) := Text.encode (Text.Base64.encode (Text.encode text))
  let headers := headers.insert principalTypeHeader (encoded identity.principalType)
  let headers := headers.insert principalIdHeader (encoded identity.principalId)
  match Http.headerValue? identity.tenantId with
  | none => (headers, false)
  | some value => (headers.insert tenantIdHeader value, true)

end PlatformClient.LocalIdentity
