import PlatformClient.Toml.Value

namespace PlatformClient.Toml

/-- How a table came to be: by a header of its own, as the parent of another
header, or by a dotted key. -/
inductive Origin where
  | header
  | parent
  | dotted
  deriving DecidableEq, Repr

/-- A document under way. -/
inductive Draft where
  | leaf (value : Toml)
  | table (origin : Origin) (entries : List (String × Draft))
  | tables (items : List (List (String × Draft)))

namespace Draft

abbrev Entries := List (String × Draft)

instance : Inhabited Draft := ⟨.table .header []⟩

def put (key : String) (draft : Draft) : Entries → Entries
  | [] => [(key, draft)]
  | (other, old) :: rest =>
    if other = key then (key, draft) :: rest else (other, old) :: put key draft rest

/-- Changes the table that a path leads to. Tables missing on the way are made
with the given origin, a list of tables stands for its last one, and a dotted
path does not enter tables that have a header of their own. -/
def change (origin : Origin) (f : Origin → Entries → Option Entries) :
    List String → Origin → Entries → Option Entries
  | [], here, entries => f here entries
  | key :: path, _, entries =>
    match entries.lookup key with
    | none => do
      let inner ← change origin f path origin []
      return put key (.table origin inner) entries
    | some (.table there inner) =>
      if origin = .dotted ∧ there = .header then none
      else do
        let inner ← change origin f path there inner
        return put key (.table there inner) entries
    | some (.tables items) =>
      match items.getLast? with
      | none => none
      | some last => do
        let inner ← change origin f path .header last
        return put key (.tables (items.dropLast ++ [inner])) entries
    | some (.leaf _) => none

/-- Adds a value below a dotted key. A dotted key adds to tables made by
dotted keys only, and a plain one to other tables only. -/
def assign (path : List String) (key : String) (value : Toml) :
    Origin → Entries → Option Entries :=
  change .dotted
    (fun origin entries =>
      if (origin = .dotted) ↔ path = [] then none
      else if (entries.lookup key).isSome then none
      else some (entries ++ [(key, .leaf value)]))
    path

/-- Opens the table of a header, which must not have been opened before. -/
def openTable (path : List String) (key : String) : Entries → Option Entries :=
  change .parent
    (fun _ entries =>
      match entries.lookup key with
      | none => some (entries ++ [(key, .table .header [])])
      | some (.table .parent inner) => some (put key (.table .header inner) entries)
      | some _ => none)
    path .header

/-- Opens a further table in a list of tables. -/
def openItem (path : List String) (key : String) : Entries → Option Entries :=
  change .parent
    (fun _ entries =>
      match entries.lookup key with
      | none => some (entries ++ [(key, .tables [[]])])
      | some (.tables items) => some (put key (.tables (items ++ [[]])) entries)
      | some _ => none)
    path .header

mutual

def finish : Draft → Toml
  | .leaf value => value
  | .table _ entries => .table (finishEntries entries)
  | .tables items => .array (finishItems items)

def finishEntries : List (String × Draft) → List (String × Toml)
  | [] => []
  | (key, draft) :: rest => (key, draft.finish) :: finishEntries rest

def finishItems : List (List (String × Draft)) → List Toml
  | [] => []
  | entries :: rest => .table (finishEntries entries) :: finishItems rest

end

end Draft

end PlatformClient.Toml
