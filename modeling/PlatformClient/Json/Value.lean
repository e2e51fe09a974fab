import PlatformClient.Number.Binary64

namespace PlatformClient

/-- A number of a document: whole when it is written without point and
exponent and fits into 64 bits with or without sign, else a double. -/
inductive Json.Number where
  | whole (value : Int)
  | double (value : Binary64)
  deriving DecidableEq, Repr

/-- A document. The fields of an object are sorted by name and no name occurs
twice. -/
inductive Json where
  | null
  | bool (value : Bool)
  | number (value : Json.Number)
  | string (value : String)
  | array (items : List Json)
  | object (fields : List (String × Json))

namespace Json

instance : Inhabited Json := ⟨.null⟩

abbrev Fields := List (String × Json)

/-- Sets a field, in place of an earlier one of the same name. -/
def Fields.insert (name : String) (value : Json) : Fields → Fields
  | [] => [(name, value)]
  | (other, old) :: rest =>
    if name < other then (name, value) :: (other, old) :: rest
    else if name = other then (name, value) :: rest
    else (other, old) :: insert name value rest

/-- The fields of a list of members, where the last of one name wins. -/
def Fields.ofMembers (members : List (String × Json)) : Fields :=
  members.foldl (fun fields (name, value) => Fields.insert name value fields) []

end Json

end PlatformClient
