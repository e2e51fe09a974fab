import PlatformClient.Profile

namespace PlatformClient

/-- All profiles, sorted by name, and the name of the one in use. -/
structure Config where
  currentProfile : String := ""
  profiles : List (String × Profile) := []
  deriving DecidableEq, Repr, Inhabited

namespace Config

/-- The profile that is in use where none is named. -/
def defaultProfileName : String := "default"

/-- The configuration where there is no document. -/
def initial : Config := ⟨defaultProfileName, []⟩

def profile (config : Config) (name : String) : Except ProfileError Profile :=
  match config.profiles.lookup name with
  | some profile => .ok profile
  | none => .error (.notFound name)

def activeProfile (config : Config) : Except ProfileError Profile :=
  config.profile config.currentProfile

/-- Sets a profile in a sorted list, in place of an earlier one of its name. -/
def insertProfile (name : String) (profile : Profile) :
    List (String × Profile) → List (String × Profile)
  | [] => [(name, profile)]
  | (other, old) :: rest =>
    if name < other then (name, profile) :: (other, old) :: rest
    else if name = other then (name, profile) :: rest
    else (other, old) :: insertProfile name profile rest

def upsert (config : Config) (name : String) (profile : Profile) : Config :=
  { config with profiles := insertProfile name profile config.profiles }

end Config

end PlatformClient
