import PlatformClient.Files.Fault
import PlatformClient.Text.Blank
import PlatformClient.Text.Utf8

namespace PlatformClient

/-- The names on the way from the root to an entry. -/
abbrev Files.Location := List String

inductive Files.Entry where
  | directory
  | file (content : Bytes)
  deriving DecidableEq, Repr

/-- A tree of files, and the directory from which relative paths lead. The
entries are sorted by location; the root is always there and is not among
them. -/
structure Files where
  entries : List (Files.Location × Files.Entry)
  workingDirectory : Files.Location
  deriving DecidableEq, Repr

namespace Files

/-- The root and the directories on the way to a working directory. -/
def emptyAt (workingDirectory : Location) : Files where
  entries := (List.range workingDirectory.length).map fun n =>
    (workingDirectory.take (n + 1), .directory)
  workingDirectory := workingDirectory

def entry? (files : Files) (location : Location) : Option Entry :=
  if location.isEmpty then some .directory else files.entries.lookup location

/-- Sets an entry in a sorted list, in place of an earlier one. -/
def insertEntry (location : Location) (entry : Entry) :
    List (Location × Entry) → List (Location × Entry)
  | [] => [(location, entry)]
  | (other, old) :: rest =>
    if location < other then (location, entry) :: (other, old) :: rest
    else if location = other then (location, entry) :: rest
    else (other, old) :: insertEntry location entry rest

def put (files : Files) (location : Location) (entry : Entry) : Files :=
  { files with entries := insertEntry location entry files.entries }

def erase (files : Files) (location : Location) : Files :=
  { files with entries := files.entries.filter fun pair => pair.1 ≠ location }

/-- What a path leads to: an entry, or a free place in a directory. -/
inductive Target where
  | found (location : Location) (entry : Entry)
  | free (location : Location)
  deriving DecidableEq, Repr

def nameLimit : Nat := 255
def pathLimit : Nat := 4095

/-- Follows the parts of a path from a directory. Parts without text and those of
one dot lead nowhere else, and two dots lead to the directory above. Only the last
part may be missing. -/
def follow (files : Files) : Location → List String → Except Fault Target
  | here, [] => .ok (.found here .directory)
  | here, part :: rest =>
    if part = "" ∨ part = "." then follow files here rest
    else if part = ".." then follow files here.dropLast rest
    else if nameLimit < part.utf8ByteSize then .error .nameTooLong
    else
      let next := here ++ [part]
      match files.entry? next with
      | some .directory => follow files next rest
      | some (.file content) =>
        if rest.isEmpty then .ok (.found next (.file content)) else .error .notDirectory
      | none => if rest.isEmpty then .ok (.free next) else .error .missing

/-- A path taken apart: where it starts, its parts between slashes, and whether it
ends with slashes, which are no part. Slashes in front leave empty parts. -/
structure Route where
  absolute : Bool
  parts : List String
  slash : Bool
  deriving DecidableEq, Repr

def Route.ofPath (path : String) : Route :=
  let parts := (Text.splitAll '/' path.toList).map String.ofList
  let kept := (parts.reverse.dropWhile (· == "")).reverse
  ⟨path.toList.head? == some '/', kept, kept.length < parts.length⟩

/-- Refuses the texts that are no path. The limit is on bytes, not on characters. -/
def checkPath (path : String) : Except Fault Unit :=
  if path.toList.contains '\x00' then .error .nulInName
  else if path.isEmpty then .error .missing
  else if pathLimit < path.utf8ByteSize then .error .nameTooLong
  else .ok ()

/-- Where a path leads, and whether it ends with a slash. What the slash asks for
differs between those who ask where the path leads. -/
def locate (files : Files) (path : String) : Except Fault (Target × Bool) := do
  checkPath path
  let route := Route.ofPath path
  let start := if route.absolute then [] else files.workingDirectory
  return (← files.follow start route.parts, route.slash)

/-- The entry that a path names. A slash at its end asks for a directory. -/
def find (files : Files) (path : String) : Except Fault (Location × Entry) := do
  match ← files.locate path with
  | (.found location .directory, _) => return (location, .directory)
  | (.found location entry, slash) => if slash then throw .notDirectory else return (location, entry)
  | (.free _, _) => throw .missing

def contains (files : Files) (path : String) : Bool := (files.find path).isOk

def isDirectory (files : Files) (path : String) : Bool :=
  match files.find path with
  | .ok (_, .directory) => true
  | _ => false

def read (files : Files) (path : String) : Except Fault Bytes := do
  match ← files.find path with
  | (_, .directory) => throw .isDirectory
  | (_, .file content) => return content

/-- Sets the content of a file, which is created where there is none. -/
def write (files : Files) (path : String) (content : Bytes) : Except Fault Files := do
  match ← files.locate path with
  | (.found _ .directory, _) => throw .isDirectory
  | (_, true) => throw .isDirectory
  | (.found location (.file _), false) => return files.put location (.file content)
  | (.free location, false) => return files.put location (.file content)

def createDirectory (files : Files) (path : String) : Except Fault Files := do
  match ← files.locate path with
  | (.found .., _) => throw .occupied
  | (.free location, _) => return files.put location .directory

/-- Moves a file to a path, over a file that is already there. A directory is not
replaced. -/
def rename (files : Files) (source target : String) : Except Fault Files := do
  let (sourceLocation, entry) ← files.find source
  match ← files.locate target with
  | (.found _ .directory, _) => throw .isDirectory
  | (_, true) => throw .notDirectory
  | (.found location _, false) => return (files.erase sourceLocation).put location entry
  | (.free location, false) => return (files.erase sourceLocation).put location entry

/-- All entries below the working directory, named from there. -/
def listing (files : Files) : List (Location × Entry) :=
  files.entries.filterMap fun (location, entry) =>
    if files.workingDirectory.isPrefixOf location ∧ files.workingDirectory.length < location.length then
      some (location.drop files.workingDirectory.length, entry)
    else none

end Files

end PlatformClient
