import Mathlib.Data.List.Basic
import Mathlib.Data.List.DropRight
import Mathlib.Data.List.TakeWhile
import PlatformClient.Text.Blank

namespace PlatformClient.Text

variable {mark : Char} {cs before after : List Char}

theorem splitFirst_eq_none (absent : mark ∉ cs) : splitFirst mark cs = none := by
  induction cs with
  | nil => rfl
  | cons c rest ih =>
    obtain ⟨other, absent⟩ := List.ne_and_not_mem_of_not_mem_cons absent
    rw [splitFirst, if_neg (Ne.symm other), ih absent, Option.map_none]

theorem splitFirst_append (absent : mark ∉ before) :
    splitFirst mark (before ++ mark :: after) = some (before, after) := by
  induction before with
  | nil => rw [List.nil_append, splitFirst, if_pos rfl]
  | cons c rest ih =>
    obtain ⟨other, absent⟩ := List.ne_and_not_mem_of_not_mem_cons absent
    rw [List.cons_append, splitFirst, if_neg (Ne.symm other), ih absent, Option.map_some]

theorem splitFirst_eq_some_iff :
    splitFirst mark cs = some (before, after) ↔ cs = before ++ mark :: after ∧ mark ∉ before := by
  constructor
  · intro split
    induction cs generalizing before with
    | nil => cases split
    | cons c rest ih =>
      rw [splitFirst] at split
      split_ifs at split with same
      · cases split
        exact ⟨by rw [same, List.nil_append], List.not_mem_nil⟩
      · obtain ⟨⟨front, back⟩, further, joined⟩ := Option.map_eq_some_iff.mp split
        cases joined
        obtain ⟨rfl, absent⟩ := ih further
        exact ⟨rfl, List.not_mem_cons_of_ne_of_not_mem (Ne.symm same) absent⟩
  · rintro ⟨rfl, absent⟩
    exact splitFirst_append absent

/-- The parts of a text are those that the library finds. -/
theorem splitAll_eq_splitOn (mark : Char) (cs : List Char) :
    splitAll mark cs = cs.splitOn mark := by
  induction cs with
  | nil => rfl
  | cons c rest ih =>
    rw [splitAll, List.splitOn_cons_eq_if_modifyHead, ih]
    by_cases same : c = mark
    · rw [if_pos same, if_pos (beq_iff_eq.mpr same)]
    · rw [if_neg same, if_neg (not_beq_of_ne same)]
      cases split : rest.splitOn mark with
      | nil => exact absurd split (List.splitOn_ne_nil mark rest)
      | cons part parts => rfl

/-- The first part of a text is what stands in front of the first mark. -/
theorem headD_splitAll (mark : Char) (cs : List Char) :
    (splitAll mark cs).headD [] = cs.takeWhile (· != mark) := by
  induction cs with
  | nil => rfl
  | cons c rest ih =>
    rw [splitAll, List.takeWhile_cons]
    by_cases same : c = mark
    · simp [same]
    · rw [if_neg same, if_pos (bne_iff_ne.mpr same), ← ih]
      cases splitAll mark rest <;> rfl

/-- Nothing is left of a text of blanks only. -/
theorem trimChars_eq_nil_iff {cs : List Char} :
    trimChars cs = [] ↔ ∀ c ∈ cs, isBlank c = true := by
  rw [trimChars, List.reverse_eq_nil_iff, trimCharsLeft, trimCharsLeft,
    List.dropWhile_eq_nil_iff]
  constructor
  · intro blank
    cases left : cs.dropWhile isBlank with
    | nil => exact List.dropWhile_eq_nil_iff.mp left
    | cons c rest =>
      have first : isBlank c = false := by
        simpa [left] using List.head?_dropWhile_not isBlank cs
      rw [left] at blank
      rw [blank c (by simp)] at first
      cases first
  · intro blank
    rw [List.dropWhile_eq_nil_iff.mpr blank]
    exact nofun

/-- What is left of a text without the blanks at both its ends. It is what stands between
two runs of blanks and neither begins nor ends with one. -/
def Trims (cs kept : List Char) : Prop :=
  ∃ front back, cs = front ++ (kept ++ back) ∧ (∀ c ∈ front, isBlank c = true) ∧
    (∀ c ∈ back, isBlank c = true) ∧ (∀ c ∈ kept.head?, isBlank c = false) ∧
    ∀ c ∈ kept.getLast?, isBlank c = false

theorem trimChars_eq_rdropWhile (cs : List Char) :
    trimChars cs = (cs.dropWhile isBlank).rdropWhile isBlank := rfl

/-- Trimming leaves what is left of a text. The blanks at the end are dropped from what the
blanks at the front have left, which is still there at its end. -/
theorem trims_trimChars (cs : List Char) : Trims cs (trimChars cs) := by
  rw [trimChars_eq_rdropWhile]
  refine ⟨cs.takeWhile isBlank, (cs.dropWhile isBlank).rtakeWhile isBlank, ?_,
    fun c => List.mem_takeWhile_imp, fun c => List.mem_rtakeWhile_imp, fun c first => ?_,
    fun c last => ?_⟩
  · rw [List.rdropWhile_append_rtakeWhile, List.takeWhile_append_dropWhile]
  · obtain ⟨rest, same⟩ := List.head?_eq_some_iff.mp first
    obtain ⟨back, whole⟩ := List.rdropWhile_prefix isBlank (cs.dropWhile isBlank)
    have left := List.head?_dropWhile_not isBlank cs
    rw [← whole, same, List.cons_append] at left
    exact left
  · have filled : (cs.dropWhile isBlank).rdropWhile isBlank ≠ [] := by
      intro none
      rw [none] at last
      cases last
    have other := List.rdropWhile_last_not isBlank _ filled
    rw [List.getLast?_eq_some_getLast filled] at last
    rw [Option.some.inj last] at other
    exact eq_false_of_ne_true other

theorem trimChars_of_trims {cs kept : List Char} (trims : Trims cs kept) : trimChars cs = kept := by
  obtain ⟨front, back, rfl, front_blank, back_blank, first, last⟩ := trims
  rw [trimChars_eq_rdropWhile, List.dropWhile_append_of_pos front_blank]
  cases kept with
  | nil => rw [List.nil_append, List.dropWhile_eq_nil_iff.mpr back_blank, List.rdropWhile_nil]
  | cons c rest =>
    have head : ¬ isBlank c = true := ne_true_of_eq_false (first c rfl)
    rw [List.cons_append, List.dropWhile_cons_of_neg head, ← List.cons_append, List.rdropWhile,
      List.reverse_append, List.dropWhile_append_of_pos (by simpa using back_blank)]
    exact List.rdropWhile_eq_self_iff.mpr fun filled =>
      ne_true_of_eq_false (last _ (List.getLast?_eq_some_getLast filled))

theorem trims_iff {cs kept : List Char} : Trims cs kept ↔ trimChars cs = kept :=
  ⟨trimChars_of_trims, fun same => same ▸ trims_trimChars cs⟩

/-- What holds of the first numbers as characters holds of every character of ASCII. A
property that can be decided is then decided for all of them at once. -/
@[elab_as_elim]
theorem forall_ascii {motive : Char → Prop} (every : ∀ n < 0x80, motive (Char.ofNat n)) {c : Char}
    (ascii : c.toNat < 0x80) : motive c := by
  have found := every c.toNat ascii
  rwa [Char.ofNat_toNat] at found

/-- There are more letters and digits beyond ASCII, but none of them counts as one here. -/
theorem ascii_of_isAlphanum {c : Char} (known : c.isAlphanum = true) : c.toNat < 0x80 := by
  have small : ∀ bound : Char, bound.val.toNat < 0x80 → c.val ≤ bound.val → c.toNat < 0x80 :=
    fun bound low within => Nat.lt_of_le_of_lt (UInt32.le_iff_toNat_le.mp within) low
  rcases Bool.or_eq_true_iff.mp known with letter | digit
  · rcases Bool.or_eq_true_iff.mp letter with upper | lower
    · exact small 'Z' (by decide) (of_decide_eq_true upper).2
    · exact small 'z' (by decide) (of_decide_eq_true (Bool.and_eq_true_iff.mp lower).2)
  · exact small '9' (by decide) (of_decide_eq_true (Bool.and_eq_true_iff.mp digit).2)

-- The library has these laws of case as well, but in no module smaller than the whole of it.
/-- Only the letters of ASCII have a second case, so what is found by going through ASCII holds of
every character. -/
theorem toUpper_of_not_ascii {c : Char} (other : ¬ c.toNat < 0x80) : c.toUpper = c :=
  dif_neg fun small => other (Nat.lt_of_le_of_lt small.2 (by decide))

theorem toLower_of_not_ascii {c : Char} (other : ¬ c.toNat < 0x80) : c.toLower = c :=
  dif_neg fun capital => other (Nat.lt_of_le_of_lt capital.2 (by decide))

theorem isAlpha_toLower (c : Char) : c.toLower.isAlpha = c.isAlpha := by
  by_cases ascii : c.toNat < 0x80
  · exact forall_ascii (by decide) ascii
  · rw [toLower_of_not_ascii ascii]

theorem toLower_toLower (c : Char) : c.toLower.toLower = c.toLower := by
  by_cases ascii : c.toNat < 0x80
  · exact forall_ascii (by decide) ascii
  · rw [toLower_of_not_ascii ascii, toLower_of_not_ascii ascii]

/-- A capital and its small letter are one letter to whoever compares them without their case. -/
theorem toLower_toUpper (c : Char) : c.toUpper.toLower = c.toLower := by
  by_cases ascii : c.toNat < 0x80
  · exact forall_ascii (by decide) ascii
  · rw [toUpper_of_not_ascii ascii]

theorem toUpper_toLower (c : Char) : c.toLower.toUpper = c.toUpper := by
  by_cases ascii : c.toNat < 0x80
  · exact forall_ascii (by decide) ascii
  · rw [toLower_of_not_ascii ascii]

/-- A part holds nothing but what the text holds, and nothing of what parts the text. By
induction over the text, whose first character opens a part or joins the first one. -/
theorem of_mem_splitOnP {separates : Char → Bool} {part : List Char}
    (inside : part ∈ cs.splitOnP separates) : ∀ c ∈ part, c ∈ cs ∧ separates c = false := by
  induction cs generalizing part with
  | nil =>
    rw [List.mem_singleton.mp inside]
    exact nofun
  | cons c rest ih =>
    have further : ∀ {part}, part ∈ rest.splitOnP separates →
        ∀ d ∈ part, d ∈ c :: rest ∧ separates d = false :=
      fun inside d found => (ih inside d found).imp_left (List.mem_cons_of_mem c)
    rw [List.splitOnP_cons_eq_if_modifyHead] at inside
    obtain ⟨first, others, split⟩ :=
      List.exists_cons_of_ne_nil (List.splitOnP_ne_nil separates rest)
    rw [split] at further inside
    split_ifs at inside with separator
    · rcases List.mem_cons.mp inside with rfl | inside
      · exact nofun
      · exact further inside
    · rcases List.mem_cons.mp inside with rfl | inside
      · intro d found
        rcases List.mem_cons.mp found with rfl | found
        · exact ⟨List.mem_cons_self, eq_false_of_ne_true separator⟩
        · exact further List.mem_cons_self d found
      · exact further (List.mem_cons_of_mem _ inside)

/-- Where the same characters of a text part it, its parts are the same. -/
theorem splitOnP_congr {separates divides : Char → Bool}
    (same : ∀ c ∈ cs, separates c = divides c) : cs.splitOnP separates = cs.splitOnP divides := by
  induction cs with
  | nil => rfl
  | cons c rest ih =>
    obtain ⟨here, further⟩ := List.forall_mem_cons.mp same
    rw [List.splitOnP_cons_eq_if_modifyHead, List.splitOnP_cons_eq_if_modifyHead, here, ih further]

end PlatformClient.Text
