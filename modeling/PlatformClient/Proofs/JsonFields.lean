import Mathlib.Data.List.Induction
import Mathlib.Data.String.Basic
import PlatformClient.Json.Value
import PlatformClient.Proofs.SortedEntries

namespace PlatformClient.Json.Fields

variable {fields : Fields} {members : List (String × Json)}

theorem insert_eq_set (name : String) (value : Json) (fields : Fields) :
    fields.insert name value = Entries.set name value fields := by
  induction fields with
  | nil => rfl
  | cons first fields ih => simp only [insert, Entries.set, ih]

theorem ofMembers_behind (members : List (String × Json)) (name : String) (value : Json) :
    ofMembers (members ++ [(name, value)]) = (ofMembers members).insert name value :=
  List.foldl_concat ..

theorem sorted_ofMembers (members : List (String × Json)) : Entries.Sorted (ofMembers members) := by
  induction members using List.reverseRecOn with
  | nil => exact List.Pairwise.nil
  | append_singleton members member ih =>
    rw [ofMembers_behind, insert_eq_set]
    exact ih.set member.1 member.2

/-- Of several members of one name the last one counts. -/
theorem lookup_ofMembers (members : List (String × Json)) (name : String) :
    (ofMembers members).lookup name = members.reverse.lookup name := by
  induction members using List.reverseRecOn with
  | nil => rfl
  | append_singleton members member ih =>
    rw [ofMembers_behind, insert_eq_set, Entries.lookup_set, ih, List.reverse_append,
      List.reverse_singleton, List.singleton_append, lookup_cons_ite]

theorem mem_ofMembers_iff {name : String} {value : Json} :
    (name, value) ∈ ofMembers members ↔ members.reverse.lookup name = some value := by
  rw [(sorted_ofMembers members).mem_iff_lookup, lookup_ofMembers]

theorem mem_of_mem_ofMembers {field : String × Json} (inside : field ∈ ofMembers members) :
    field ∈ members :=
  List.mem_reverse.mp (Entries.mem_of_lookup (mem_ofMembers_iff.mp inside))

/-- Fields are those of themselves as members. Each of them comes behind all that are set
before it, so that it is put at the end. -/
theorem ofMembers_of_sorted (sorted : Entries.Sorted fields) : ofMembers fields = fields := by
  induction fields using List.reverseRecOn with
  | nil => rfl
  | append_singleton fields field ih =>
    obtain ⟨earlier, -, behind⟩ := List.pairwise_append.mp sorted
    rw [ofMembers_behind, insert_eq_set, ih earlier, Entries.set_last]
    exact fun other inside => behind other inside field (List.mem_singleton_self field)

end PlatformClient.Json.Fields
