import Mathlib.Data.List.Nodup
import Mathlib.Order.Lattice

namespace PlatformClient

theorem lookup_cons_ite {α β : Type} [DecidableEq α] [BEq α] [LawfulBEq α] (key other : α)
    (value : β) (entries : List (α × β)) :
    List.lookup other ((key, value) :: entries) =
      if other = key then some value else entries.lookup other := by
  by_cases same : other = key
  · simp [same]
  · simp [same, List.lookup_cons, beq_false_of_ne same]

namespace Entries

theorem mem_of_lookup {κ β : Type} [BEq κ] [LawfulBEq κ] {entries : List (κ × β)} {key : κ}
    {value : β} (known : entries.lookup key = some value) : (key, value) ∈ entries := by
  obtain ⟨before, after, rfl, -⟩ := List.lookup_eq_some_iff.mp known
  exact List.mem_append_right _ List.mem_cons_self

/-- Where every key is there once, the entries are what is found under their keys. -/
theorem mem_iff_lookup {κ β : Type} [DecidableEq κ] [BEq κ] [LawfulBEq κ]
    {entries : List (κ × β)} (distinct : (entries.map (·.1)).Nodup) {key : κ} {value : β} :
    (key, value) ∈ entries ↔ entries.lookup key = some value := by
  refine ⟨fun inside => ?_, mem_of_lookup⟩
  induction entries with
  | nil => cases inside
  | cons first entries ih =>
    obtain ⟨absent, others⟩ := List.nodup_cons.mp distinct
    rw [lookup_cons_ite]
    rcases List.mem_cons.mp inside with rfl | later
    · exact if_pos rfl
    · have apart : key ≠ first.1 := by
        rintro rfl
        exact absent (List.mem_map.mpr ⟨_, later, rfl⟩)
      rw [if_neg apart, ih others later]

section Setting

variable {κ β : Type} [DecidableEq κ] [LT κ] [DecidableLT κ]

/-- Sets an entry in a list that is sorted by its keys, in place of an earlier one. The list
stays sorted and without repetitions. -/
def set (key : κ) (value : β) : List (κ × β) → List (κ × β)
  | [] => [(key, value)]
  | (other, old) :: rest =>
    if key < other then (key, value) :: (other, old) :: rest
    else if key = other then (key, value) :: rest
    else (other, old) :: set key value rest

theorem lookup_set [BEq κ] [LawfulBEq κ] (key other : κ) (value : β) (entries : List (κ × β)) :
    (set key value entries).lookup other =
      if other = key then some value else entries.lookup other := by
  induction entries with
  | nil => exact lookup_cons_ite key other value []
  | cons first entries ih =>
    obtain ⟨name, old⟩ := first
    rw [set]
    by_cases less : key < name
    · rw [if_pos less, lookup_cons_ite]
    rw [if_neg less]
    by_cases equal : key = name
    · rw [if_pos equal, lookup_cons_ite, lookup_cons_ite, ← equal]
      split_ifs <;> rfl
    · rw [if_neg equal, lookup_cons_ite, lookup_cons_ite, ih]
      by_cases same : other = key
      · rw [if_pos same, same, if_neg equal, if_pos rfl]
      · rw [if_neg same, if_neg same]

theorem mem_set {key : κ} {value : β} {entry : κ × β} {entries : List (κ × β)}
    (inside : entry ∈ set key value entries) : entry = (key, value) ∨ entry ∈ entries := by
  induction entries with
  | nil => exact Or.inl (List.mem_singleton.mp inside)
  | cons first entries ih =>
    rw [set] at inside
    split_ifs at inside
    · exact List.mem_cons.mp inside
    · rcases List.mem_cons.mp inside with same | later
      · exact Or.inl same
      · exact Or.inr (List.mem_cons_of_mem _ later)
    · rcases List.mem_cons.mp inside with same | later
      · exact Or.inr (same ▸ List.mem_cons_self)
      · exact (ih later).imp_right (List.mem_cons_of_mem _)

end Setting

section Order

variable {κ β : Type} [LinearOrder κ] {entries others : List (κ × β)} {key : κ} {value : β}

/-- The entries are sorted by their keys, each of which is there once. -/
def Sorted (entries : List (κ × β)) : Prop := entries.Pairwise (·.1 < ·.1)

theorem Sorted.set (sorted : Sorted entries) (key : κ) (value : β) :
    Sorted (set key value entries) := by
  induction entries with
  | nil => exact List.pairwise_singleton _ _
  | cons first entries ih =>
    obtain ⟨smaller, rest⟩ := List.pairwise_cons.mp sorted
    rw [Entries.set]
    split_ifs with less same
    · refine List.pairwise_cons.mpr ⟨fun entry inside => ?_, sorted⟩
      rcases List.mem_cons.mp inside with rfl | later
      · exact less
      · exact lt_trans less (smaller entry later)
    · exact List.pairwise_cons.mpr ⟨fun entry inside => same ▸ smaller entry inside, rest⟩
    · refine List.pairwise_cons.mpr ⟨fun entry inside => ?_, ih rest⟩
      rcases mem_set inside with rfl | later
      · exact lt_of_le_of_ne (not_lt.mp less) (Ne.symm same)
      · exact smaller entry later

/-- An entry behind all others is set at the end. -/
theorem set_last (smaller : ∀ entry ∈ entries, entry.1 < key) (value : β) :
    set key value entries = entries ++ [(key, value)] := by
  induction entries with
  | nil => rfl
  | cons entry entries ih =>
    obtain ⟨first, smaller⟩ := List.forall_mem_cons.mp smaller
    rw [Entries.set, if_neg (lt_asymm first), if_neg (ne_of_gt first), ih smaller]
    rfl

theorem Sorted.distinct (sorted : Sorted entries) : (entries.map (·.1)).Nodup := by
  rw [List.Nodup, List.pairwise_map]
  exact List.Pairwise.imp (fun less => ne_of_lt less) sorted

/-- The entries are what is found under their keys. -/
theorem Sorted.mem_iff_lookup (sorted : Sorted entries) :
    (key, value) ∈ entries ↔ entries.lookup key = some value :=
  Entries.mem_iff_lookup sorted.distinct

/-- Where the same is found under every key, the entries are the same. Sorted entries leave
no choice of their order. -/
theorem Sorted.ext (sorted : Sorted entries) (again : Sorted others)
    (same : ∀ key, entries.lookup key = others.lookup key) : entries = others := by
  have perm : entries.Perm others := by
    refine (List.perm_ext_iff_of_nodup (List.Nodup.of_map _ sorted.distinct)
      (List.Nodup.of_map _ again.distinct)).mpr ?_
    rintro ⟨key, value⟩
    rw [sorted.mem_iff_lookup, again.mem_iff_lookup, same]
  exact perm.eq_of_pairwise (fun _ _ _ _ before after => absurd before (lt_asymm after)) sorted
    again

end Order

end Entries

end PlatformClient
