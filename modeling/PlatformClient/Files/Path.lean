import PlatformClient.Files.Basic

namespace PlatformClient.Files

/-- The parts of a path from the last to the first, without those at its end that
lead nowhere else. Two dots are not among these. -/
def trimmedParts (parts : List (List Char)) : List (List Char) :=
  parts.dropWhile fun part => part.isEmpty || part == ['.']

def reversedParts (path : String) : List (List Char) :=
  trimmedParts (Text.splitAll '/' path.toList).reverse

def joinParts (parts : List (List Char)) : String :=
  String.ofList (List.intercalate ['/'] parts.reverse)

/-- A path behind a directory, unless it starts at the root. Behind the empty path
it stays as it is. -/
def join (directory path : String) : String :=
  if path.toList.head? = some '/' then path
  else if directory.isEmpty ∨ directory.toList.getLast? = some '/' then directory ++ path
  else directory ++ "/" ++ path

/-- A name without the part from its last dot on. A dot in front does not
count. -/
def stem (name : List Char) : List Char :=
  match Text.splitFirst '.' name.reverse with
  | none => name
  | some (_, before) => if before.isEmpty then name else before.reverse

/-- Sets what stands behind the last dot of the name at the end of a path. A
path without a name is left alone. -/
def withExtension (path extension : String) : String :=
  match reversedParts path with
  | [] => path
  | name :: above =>
    if name = ['.', '.'] then path
    else joinParts ((stem name ++ '.' :: extension.toList) :: above)

/-- The paths of the directories above, from the last to the first. They are read
off the text, so two dots count as a name. -/
def ancestorsOf (absolute : Bool) : List (List Char) → List String
  | [] => []
  | _ :: above =>
    let rest := trimmedParts above
    if rest.isEmpty then (if absolute then ["/"] else [])
    else joinParts rest :: ancestorsOf absolute rest
termination_by parts => parts.length
decreasing_by
  have := (List.dropWhile_sublist (l := above) fun part => part.isEmpty || part == ['.']).length_le
  simp only [List.length_cons, trimmedParts]
  omega

def ancestors (path : String) : List String :=
  ancestorsOf (path.toList.head? == some '/') (reversedParts path)

/-- The directory above the last name of a path, where the path has one. -/
def parent? (path : String) : Option String := (ancestors path).head?

/-- Goes up along a path until a directory can be created or is there, and gives the
paths left to be created, the uppermost first. -/
def createLowest (files : Files) : List String → List String → Except Fault (Files × List String)
  | left, [] => .ok (files, left)
  | left, path :: above =>
    match files.createDirectory path with
    | .ok files => .ok (files, left)
    | .error fault =>
      if fault = .missing then createLowest files (path :: left) above
      else if fault = .occupied ∧ files.isDirectory path then .ok (files, left)
      else .error fault

/-- Creates directories one after the other, up to the first fault. One that is
there by now is none. -/
def createEach (files : Files) : List String → Files × Except Fault Unit
  | [] => (files, .ok ())
  | path :: rest =>
    match files.createDirectory path with
    | .ok files => createEach files rest
    | .error fault =>
      if fault = .occupied ∧ files.isDirectory path then createEach files rest
      else (files, .error fault)

/-- Creates a directory and those above it that are missing. What has been created
before a fault stays. The way up ends at the first directory that is there, so those
above it are not looked at. -/
def createDirectories (files : Files) (path : String) : Files × Except Fault Unit :=
  if path.isEmpty then (files, .ok ())
  else match createLowest files [] (path :: ancestors path) with
    | .error fault => (files, .error fault)
    | .ok (files, left) => createEach files left

end PlatformClient.Files
