import PlatformClient.Config.Document
import PlatformClient.Files.Path

namespace PlatformClient.Config

/-- Why a configuration cannot be kept in files. -/
inductive StoreError where
  | unreadable (path : String)
  | malformed (path : String)
  | directory (fault : Files.Fault)
  | temporaryFile
  | renaming
  deriving DecidableEq, Repr

def StoreError.message : StoreError → String
  | .unreadable path => "Failed to read " ++ Text.quote path
  | .malformed path => "Failed to parse " ++ Text.quote path
  | .directory fault => fault.message
  | .temporaryFile => "Failed to write temp config file"
  | .renaming => "Failed to rename temp config file"

/-- Reads the configuration from a file. Where there is no file, it is the initial
one; one that is there and cannot be read is an error. -/
def load (files : Files) (path : String) : Except StoreError Config :=
  if ¬ files.contains path then .ok initial
  else match (files.read path).toOption.bind Text.decode? with
    | none => .error (.unreadable path)
    | some text =>
      match read text with
      | none => .error (.malformed path)
      | some config => .ok config

/-- Where a document is written before it takes the place of the old one. It lies in
the same directory, where it can be renamed. -/
def temporaryPath (path : String) : String := Files.withExtension path "toml.tmp"

/-- Writes a document to a file beside the old one, and then puts it in its place.
At no time is there a part of a document at the path. -/
def replaceDocument (files : Files) (path : String) (content : Bytes) :
    Files × Except StoreError Unit :=
  match files.write (temporaryPath path) content with
  | .error _ => (files, .error .temporaryFile)
  | .ok written =>
    match written.rename (temporaryPath path) path with
    | .error _ => (written, .error .renaming)
    | .ok renamed => (renamed, .ok ())

/-- Writes the configuration to a file, and creates the directories above it that
are missing. These stay, whatever becomes of the document. -/
def save (config : Config) (files : Files) (path : String) : Files × Except StoreError Unit :=
  match files.createDirectories ((Files.parent? path).getD "") with
  | (files, .error fault) => (files, .error (.directory fault))
  | (files, .ok ()) => replaceDocument files path (Text.encode config.print)

end PlatformClient.Config
