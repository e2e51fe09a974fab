import PlatformClient.Config.Basic
import PlatformClient.Toml.Printer
import PlatformClient.Toml.Reader

namespace PlatformClient.Config

/-- The text under a key, or the empty text where there is no such key. -/
def optionalText (entries : Toml.Entries) (key : String) : Option String :=
  match entries.get? key with
  | none => some ""
  | some value => value.string?

def identityKeys : List String := ["principal_type", "principal_id", "tenant_id"]

def readIdentity (value : Toml) : Option LocalIdentity := do
  let entries ← value.record? identityKeys
  return {
    principalType := ← optionalText entries "principal_type"
    principalId := ← optionalText entries "principal_id"
    tenantId := ← optionalText entries "tenant_id" }

def profileKeys : List String :=
  ["url", "auth_method", "token", "tenant_id", "client_id", "client_secret", "local_auth"]

def readAuthMethod (value : Toml) : Option AuthMethod := value.choice? >>= AuthMethod.ofName?

/-- A profile needs a URL; everything else may be missing. -/
def readProfile (value : Toml) : Option Profile := do
  let entries ← value.record? profileKeys
  return {
    url := ← entries.get? "url" >>= Toml.string?
    authMethod := ← match entries.get? "auth_method" with
      | none => some .none
      | some value => readAuthMethod value
    token := ← optionalText entries "token"
    tenantId := ← optionalText entries "tenant_id"
    clientId := ← optionalText entries "client_id"
    clientSecret := ← optionalText entries "client_secret"
    identity := ← match entries.get? "local_auth" with
      | none => some {}
      | some value => readIdentity value }

def readProfiles (entries : Toml.Entries) : Option (List (String × Profile)) :=
  entries.foldlM (fun profiles (name, value) =>
    (readProfile value).map (insertProfile name · profiles)) []

/-- Reads a document. Entries that mean nothing here are passed over. -/
def read (text : String) : Option Config := do
  let entries ← Toml.read text
  let currentProfile ← match entries.get? "current_profile" with
    | none => some defaultProfileName
    | some value => value.string?
  let profiles ← match entries.get? "profiles" with
    | none => some []
    | some (.table entries) => readProfiles entries
    | some _ => none
  return ⟨currentProfile, profiles⟩

/-- The line of a text, which is left out where the text is empty. -/
def printOptional (key value : String) : List Char :=
  if value.isEmpty then [] else Toml.printEntry key value

/-- The tables of a profile and of its identity. -/
def printProfile (name : String) (profile : Profile) : List Char :=
  '\n' :: Toml.printHeader ["profiles", name] ++
    Toml.printEntry "url" profile.url ++
    Toml.printEntry "auth_method" profile.authMethod.name ++
    printOptional "token" profile.token ++
    printOptional "tenant_id" profile.tenantId ++
    printOptional "client_id" profile.clientId ++
    printOptional "client_secret" profile.clientSecret ++
    '\n' :: Toml.printHeader ["profiles", name, "local_auth"] ++
    Toml.printEntry "principal_type" profile.identity.principalType ++
    Toml.printEntry "principal_id" profile.identity.principalId ++
    Toml.printEntry "tenant_id" profile.identity.tenantId

def printProfiles (profiles : List (String × Profile)) : List Char :=
  if profiles.isEmpty then '\n' :: Toml.printHeader ["profiles"]
  else profiles.flatMap fun (name, profile) => printProfile name profile

/-- The document from which a configuration is read again. -/
def print (config : Config) : String :=
  String.ofList <|
    Toml.printEntry "current_profile" config.currentProfile ++ printProfiles config.profiles

end PlatformClient.Config
