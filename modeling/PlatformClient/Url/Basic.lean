import PlatformClient.Url.Host

namespace PlatformClient

/-- Who asks, and on which machine and port. A password is never empty. -/
structure Url.Authority where
  userName : String
  password : Option String
  host : Url.Host
  port : Option Nat
  deriving DecidableEq, Repr

/-- A path is one text without structure, or segments each of which follows a
slash. -/
inductive Url.Path where
  | plain (text : String)
  | segments (names : List String)
  deriving DecidableEq, Repr

/-- An address. All its parts are escaped as they are written. -/
structure Url where
  scheme : String
  authority : Option Url.Authority
  path : Url.Path
  query : Option String
  fragment : Option String
  deriving DecidableEq, Repr

namespace Url

/-- The port that a special scheme uses where none is named. -/
def defaultPort (scheme : String) : Option Nat :=
  if scheme = "http" ∨ scheme = "ws" then some 80
  else if scheme = "https" ∨ scheme = "wss" then some 443
  else if scheme = "ftp" then some 21
  else none

def isSpecial (scheme : String) : Bool :=
  scheme == "file" || (defaultPort scheme).isSome

/-- Each segment is written behind a slash. -/
def Path.printSegments (names : List String) : List Char :=
  names.flatMap fun name => '/' :: name.toList

def Path.print : Path → List Char
  | .plain text => text.toList
  | .segments names => printSegments names

def pathText (url : Url) : String := String.ofList url.path.print

def Authority.printUserInfo (authority : Authority) : List Char :=
  let name := authority.userName.toList
  match authority.password with
  | some password => name ++ ':' :: password.toList ++ ['@']
  | none => if name.isEmpty then [] else name ++ ['@']

def Authority.print (authority : Authority) : List Char :=
  authority.printUserInfo ++ authority.host.print ++
    match authority.port with
    | some port => ':' :: Nat.toDigits 10 port
    | none => []

/-- Without an authority, a path that begins with an empty segment is kept
apart from one by `/.`. -/
def printHierarchy (url : Url) : List Char :=
  match url.authority, url.path with
  | some authority, path => '/' :: '/' :: authority.print ++ path.print
  | none, .segments ("" :: name :: names) =>
    '/' :: '.' :: Path.printSegments ("" :: name :: names)
  | none, path => path.print

def printQuery : Option String → List Char
  | some query => '?' :: query.toList
  | none => []

def printFragment : Option String → List Char
  | some fragment => '#' :: fragment.toList
  | none => []

def printChars (url : Url) : List Char :=
  url.scheme.toList ++ ':' :: url.printHierarchy ++ printQuery url.query ++
    printFragment url.fragment

def print (url : Url) : String := String.ofList url.printChars

def hasOpaquePath (url : Url) : Bool :=
  match url.path with
  | .plain _ => true
  | .segments _ => false

/-- The host as text, where there is one. -/
def hostText (url : Url) : Option String :=
  match url.authority with
  | none => none
  | some authority =>
    if authority.host = .empty then none else some (String.ofList authority.host.print)

end Url

end PlatformClient
