import PlatformClient.Url.Reader
import PlatformClient.Text.Abbreviation

namespace PlatformClient.Url

/-- The segments of a directory, from the last to the first, without the empty
ones at its end. -/
def directory : Path → List String
  | .plain _ => []
  | .segments names => names.reverse.dropWhile (·.isEmpty)

/-- Goes on from a directory along a text, which is taken as written: its own
escapes stay, and only what an address cannot hold is escaped. Two dots lead up, but
not above the root. -/
def extendPath (url : Url) (cs : List Char) : Path :=
  .segments <| finishPath url.scheme <|
    walk (url.scheme == "file") (directory url.path) <|
      splitSegments (isSpecial url.scheme) (withoutIgnored cs)

/-- The path and the query of a call, which the first question mark parts. An
empty query is none. -/
def splitCallPath (cs : List Char) : List Char × Option (List Char) :=
  match Text.splitFirst '?' cs with
  | none => (cs, none)
  | some (path, query) => (path, if query.isEmpty then none else some query)

/-- The address of a call: its path is appended to the path of the base, its query
replaces the query of the base, and there is no fragment. A base without segments
has no room for a path. The scheme and the host are those of the base, whatever the
path says. -/
def join? (base : Url) (callPath : String) : Option Url :=
  if base.hasOpaquePath then none
  else
    let (path, query) := splitCallPath callPath.toList
    let relative := path.dropWhile (· == '/')
    some { base with
      path := if relative.isEmpty then base.path else base.extendPath relative
      query := query.map fun query => encodeQuery base.scheme (withoutIgnored query)
      fragment := none }

def displayedPathLength : Nat := 50
def displayedQueryLength : Nat := 6

/-- The short form of an address in labels: its abbreviated path and, where there is
one, its abbreviated query. The host is left out. -/
def displayPath (url : Url) : String :=
  let path := Text.abbreviateChars url.path.print displayedPathLength
  let query := match url.query with
    | none => []
    | some query =>
      if query.isEmpty then []
      else '?' :: Text.abbreviateChars query.toList displayedQueryLength
  String.ofList (path ++ query)

end PlatformClient.Url
