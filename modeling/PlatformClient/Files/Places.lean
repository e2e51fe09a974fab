import PlatformClient.Files.Basic

namespace PlatformClient.Files

/-- The places that the parts of a path lead through, if no entry on the way
is in the way. -/
def placesFrom : Location → List String → List Location
  | here, [] => [here]
  | here, part :: rest =>
    let next :=
      if part = "" ∨ part = "." then here
      else if part = ".." then here.dropLast
      else here ++ [part]
    here :: placesFrom next rest

/-- The places that a path leads through, the working directory among them
where it starts there. -/
def places (workingDirectory : Location) (path : String) : List Location :=
  let route := Route.ofPath path
  placesFrom (if route.absolute then [] else workingDirectory) route.parts

/-- The entries that were not there before or were different. -/
def changesSince (files before : Files) : List (Location × Entry) :=
  files.entries.filter fun (location, entry) => before.entry? location != some entry

/-- A place as an absolute path. -/
def pathOf (location : Location) : String := "/" ++ "/".intercalate location

end PlatformClient.Files
