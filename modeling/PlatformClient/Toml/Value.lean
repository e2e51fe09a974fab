namespace PlatformClient

/-- A value of a configuration document. Of floats and of moments in time only
the text is kept, as nothing is computed from them. -/
inductive Toml where
  | string (value : String)
  | integer (value : Int)
  | float (text : String)
  | boolean (value : Bool)
  | moment (text : String)
  | array (items : List Toml)
  | table (entries : List (String × Toml))

namespace Toml

instance : Inhabited Toml := ⟨.table []⟩

abbrev Entries := List (String × Toml)

def Entries.get? (entries : Entries) (key : String) : Option Toml := entries.lookup key

def string? : Toml → Option String
  | .string value => some value
  | _ => none

/-- The entries of a table, or the items of a list under the names they have
by their place. -/
def record? (names : List String) : Toml → Option Entries
  | .table entries => some entries
  | .array items => some (names.zip items)
  | _ => none

def isEmptyCollection : Toml → Bool
  | .array items => items.isEmpty
  | .table entries => entries.isEmpty
  | _ => false

/-- The name of a choice: a string, or the only key of a table over nothing. -/
def choice? : Toml → Option String
  | .string value => some value
  | .table [(key, value)] => if value.isEmptyCollection then some key else none
  | _ => none

end Toml

end PlatformClient
