import PlatformClient.Url.Basic

namespace PlatformClient.Url

/-- Tabs and line ends count for nothing in an address. -/
def isIgnored (c : Char) : Bool := c == '\t' || c == '\n' || c == '\r'

def withoutIgnored (cs : List Char) : List Char := cs.filter (!isIgnored ·)

/-- Controls and spaces around an address count for nothing. -/
def isOuterBlank (c : Char) : Bool := c.toNat ≤ 0x20

def withoutOuterBlanks (cs : List Char) : List Char :=
  ((cs.dropWhile isOuterBlank).reverse.dropWhile isOuterBlank).reverse

def isSchemeChar (c : Char) : Bool := c.isAlphanum || c == '+' || c == '-' || c == '.'

/-- The scheme in lower case, and the text behind its colon. -/
def readScheme (cs : List Char) : Option (String × List Char) :=
  match cs with
  | [] => none
  | c :: _ =>
    if c.isAlpha then
      match cs.dropWhile isSchemeChar with
      | ':' :: rest =>
        some (String.ofList ((cs.takeWhile isSchemeChar).map Char.toLower), rest)
      | _ => none
    else none

/-- A slash, or a backslash where the scheme is special. -/
def isSlash (special : Bool) (c : Char) : Bool := c == '/' || (special && c == '\\')

/-- The segments between the slashes of a text. -/
def splitSegments (special : Bool) : List Char → List (List Char)
  | [] => [[]]
  | c :: rest =>
    if isSlash special c then [] :: splitSegments special rest
    else match splitSegments special rest with
      | [] => [[c]]
      | name :: names => (c :: name) :: names

/-- A dot, plain or escaped, at the front of a segment. -/
def skipDot : List Char → Option (List Char)
  | '.' :: rest => some rest
  | '%' :: '2' :: 'e' :: rest => some rest
  | '%' :: '2' :: 'E' :: rest => some rest
  | _ => none

def isSingleDot (name : List Char) : Bool := skipDot name == some []

def isDoubleDot (name : List Char) : Bool := (skipDot name).bind skipDot == some []

def encodeSegment (name : List Char) : String :=
  String.ofList (Percent.encode Percent.pathSet name)

/-- A letter that names a drive, with a colon or a bar behind it. -/
def isDriveLetter : List Char → Bool
  | [c, mark] => c.isAlpha && (mark == ':' || mark == '|')
  | _ => false

/-- A segment as it is written. In the path of a file a drive letter has a
colon. -/
def segment (isFile : Bool) (name : List Char) : String :=
  if isFile && isDriveLetter name then String.ofList (name.take 1 ++ [':'])
  else encodeSegment name

/-- Leaves the last directory, given from the last to the first. There is no
way up from a drive. -/
def goUp (isFile : Bool) : List String → List String
  | [] => []
  | last :: above => if isFile && isDriveLetter last.toList then last :: above else above

/-- Goes down from a directory, whose segments are given from the last to the
first, along further segments. A single dot stays and a double dot goes up, but
never above the root; as last segment both name a directory. -/
def walk (isFile : Bool) : List String → List (List Char) → List String
  | above, [] => above.reverse
  | above, [name] =>
    if isDoubleDot name then ("" :: goUp isFile above).reverse
    else if isSingleDot name then ("" :: above).reverse
    else (segment isFile name :: above).reverse
  | above, name :: rest =>
    if isDoubleDot name then walk isFile (goUp isFile above) rest
    else if isSingleDot name then walk isFile above rest
    else walk isFile (segment isFile name :: above) rest

/-- The path of a file has no empty segments at its front. -/
def finishPath (scheme : String) (names : List String) : List String :=
  if scheme = "file" then
    match names.dropWhile (·.isEmpty) with
    | [] => [""]
    | names => names
  else names

/-- The segments of a path that may begin with a slash. -/
def readSegments (scheme : String) (cs : List Char) : List String :=
  let special := isSpecial scheme
  match cs with
  | [] => if special then [""] else []
  | c :: rest =>
    let names := splitSegments special (if isSlash special c then rest else c :: rest)
    finishPath scheme (walk (scheme == "file") [] names)

/-- The text before the last `@` and the text behind it. -/
def splitUserInfo (cs : List Char) : Option (List Char × List Char) :=
  (Text.splitFirst '@' cs.reverse).map fun (after, before) => (before.reverse, after.reverse)

/-- The text up to the first colon outside brackets, and the text from it
on. -/
def splitHost : Bool → List Char → List Char × List Char
  | _, [] => ([], [])
  | inside, c :: rest =>
    if c = ':' ∧ inside = false then ([], c :: rest)
    else
      let inside := if c = '[' then true else if c = ']' then false else inside
      let (host, port) := splitHost inside rest
      (c :: host, port)

/-- The port behind its colon, unless it is the one that the scheme uses
anyway. -/
def readPort (scheme : String) (digits : List Char) : Except ReadError (Option Nat) :=
  match Host.numeral 10 digits with
  | none => .error .invalidPort
  | some port =>
    if 0x10000 ≤ port then .error .invalidPort
    else .ok (if digits.isEmpty ∨ defaultPort scheme = some port then none else some port)

def readHost (scheme : String) (cs : List Char) : Except ReadError Host :=
  if isSpecial scheme then Host.readSpecial cs else Host.readOpaque cs

def readUserInfo (cs : List Char) : String × Option String :=
  let encoded (cs : List Char) := String.ofList (Percent.encode Percent.userInfoSet cs)
  match Text.splitFirst ':' cs with
  | none => (encoded cs, none)
  | some (name, password) => (encoded name, if password.isEmpty then none else some (encoded password))

/-- Reads the text between the two slashes and the path. Before a path, an
empty host is refused behind an `@`, before a port, and in special schemes. -/
def readAuthority (scheme : String) (cs : List Char) (pathFollows : Bool) :
    Except ReadError Authority := do
  let (userInfo, rest) := (splitUserInfo cs).getD ([], cs)
  if (splitUserInfo cs).isSome ∧ userInfo.isEmpty ∧ rest.isEmpty ∧ pathFollows then
    throw .emptyHost
  let (userName, password) := readUserInfo userInfo
  let (hostText, rest) := splitHost false rest
  let host ← readHost scheme hostText
  let port ← match rest with
    | [] => pure none
    | _ :: digits => do
      if host = .empty then throw .emptyHost
      readPort scheme digits
  if host = .empty ∧ (userName ≠ "" ∨ password.isSome) then throw .emptyHost
  return ⟨userName, password, host, port⟩

/-- The parts of an address behind its scheme, before they are read. -/
structure Parts where
  hierarchy : List Char
  query : Option (List Char)
  fragment : Option (List Char)

def Parts.split (cs : List Char) : Parts :=
  let (rest, fragment) := match Text.splitFirst '#' cs with
    | some (rest, fragment) => (rest, some fragment)
    | none => (cs, none)
  match Text.splitFirst '?' rest with
  | some (hierarchy, query) => ⟨hierarchy, some query, fragment⟩
  | none => ⟨rest, none, fragment⟩

def encodeQuery (scheme : String) (cs : List Char) : String :=
  String.ofList <|
    Percent.encode (if isSpecial scheme then Percent.specialQuerySet else Percent.querySet) cs

def encodeFragment (cs : List Char) : String :=
  String.ofList (Percent.encode Percent.fragmentSet cs)

/-- An authority and the path behind it. -/
def readAfterSlashes (scheme : String) (cs : List Char) (more : Bool) :
    Except ReadError (Option Authority × Path) := do
  let slash := isSlash (isSpecial scheme)
  let path := cs.dropWhile (!slash ·)
  let authority ← readAuthority scheme (cs.takeWhile (!slash ·)) (!path.isEmpty || more)
  return (some authority, .segments (readSegments scheme path))

/-- The host and the path of a file. A file on a drive has no host. -/
def fileOn (host : Host) (path : List Char) : Option Authority × Path :=
  let host := if (splitSegments true path).any isDriveLetter then .empty else host
  (some ⟨"", none, host, none⟩, .segments (readSegments "file" path))

/-- Files lie on a host that is mostly left out; the name `localhost` means
the same as none. A drive letter in its place begins the path. -/
def readFile (cs : List Char) : Except ReadError (Option Authority × Path) := do
  let slash := isSlash true
  match cs with
  | a :: b :: rest =>
    if slash a && slash b then
      let hostText := rest.takeWhile (!slash ·)
      if hostText.isEmpty then return fileOn .empty rest
      else if isDriveLetter hostText then return fileOn .empty rest
      else
        let host ← Host.readSpecial hostText
        return fileOn (if host = .domain "localhost" then .empty else host)
          (rest.dropWhile (!slash ·))
    else return fileOn .empty cs
  | _ => return fileOn .empty cs

def readHierarchy (scheme : String) (parts : Parts) :
    Except ReadError (Option Authority × Path) :=
  let cs := parts.hierarchy
  let more := parts.query.isSome || parts.fragment.isSome
  if scheme = "file" then readFile cs
  else if isSpecial scheme then readAfterSlashes scheme (cs.dropWhile (isSlash true)) more
  else match cs with
    | '/' :: '/' :: rest => readAfterSlashes scheme rest more
    | '/' :: rest => .ok (none, .segments (readSegments scheme ('/' :: rest)))
    | rest => .ok (none, .plain (String.ofList (Percent.encode Percent.controls rest)))

/-- Reads an address that stands on its own. -/
def readChars (cs : List Char) : Except ReadError Url :=
  match readScheme (withoutIgnored (withoutOuterBlanks cs)) with
  | none => .error .relativeWithoutBase
  | some (scheme, rest) => do
    let parts := Parts.split rest
    let (authority, path) ← readHierarchy scheme parts
    return {
      scheme, authority, path
      query := parts.query.map (encodeQuery scheme)
      fragment := parts.fragment.map encodeFragment }

def read (s : String) : Except ReadError Url := readChars s.toList

end PlatformClient.Url
