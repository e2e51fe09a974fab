import Mathlib.Algebra.Group.Nat.Defs
import Mathlib.Tactic.SplitIfs
import PlatformClient.Proofs.Outcomes
import PlatformClient.Url.Host

namespace PlatformClient.Url.Host

variable {base n d : Nat} {cs : List Char}

theorem digitValue_digitChar (hexadecimal : base ≤ 16) (digit : d < base) :
    digitValue base d.digitChar = some d := by
  have value : ∀ d < 16, (if 48 ≤ d.digitChar.toNat ∧ d.digitChar.toNat ≤ 57 then
      d.digitChar.toNat - 48
    else if 65 ≤ d.digitChar.toNat ∧ d.digitChar.toNat ≤ 70 then d.digitChar.toNat - 55
    else if 97 ≤ d.digitChar.toNat ∧ d.digitChar.toNat ≤ 102 then d.digitChar.toNat - 87
    else 16) = d := by decide
  rw [digitValue, value d (by omega), if_pos digit]

theorem numeral_append (hexadecimal : base ≤ 16) (digit : d < base)
    (known : numeral base cs = some n) :
    numeral base (cs ++ [d.digitChar]) = some (n * base + d) := by
  obtain ⟨digits, each, rfl⟩ := Option.map_eq_some_iff.mp known
  rw [numeral, List.mapM_append, each, List.mapM_cons, digitValue_digitChar hexadecimal digit]
  simp [List.foldl_append]

/-- A number is what its digits stand for. By induction over the number, which loses its
last digit. -/
theorem numeral_toDigits (several : 1 < base) (hexadecimal : base ≤ 16) (n : Nat) :
    numeral base (Nat.toDigits base n) = some n := by
  induction n using Nat.strongRecOn with
  | ind n ih =>
    have none : numeral base [] = some 0 := rfl
    rw [Nat.toDigits_eq_if several]
    split_ifs with small
    · rw [← List.nil_append [n.digitChar], numeral_append hexadecimal small none, Nat.zero_mul,
        Nat.zero_add]
    · have shorter : n / base < n := Nat.div_lt_self (by omega) several
      have digit : n % base < base := Nat.mod_lt n (by omega)
      rw [numeral_append hexadecimal digit (ih _ shorter), Nat.div_add_mod']

/-- What holds of all digits holds of the characters of a number. No other property of
numbers as texts is needed to keep them apart from marks around them. -/
theorem forall_mem_toDigits {p : Char → Prop} (several : 1 < base) (hexadecimal : base ≤ 16)
    (each : ∀ d < 16, p d.digitChar) (n : Nat) : ∀ c ∈ Nat.toDigits base n, p c := by
  induction n using Nat.strongRecOn with
  | ind n ih =>
    rw [Nat.toDigits_eq_if several]
    split_ifs with small
    · exact List.forall_mem_singleton.mpr (each n (by omega))
    · have shorter : n / base < n := Nat.div_lt_self (by omega) several
      have digit : n % base < base := Nat.mod_lt n (by omega)
      exact List.forall_mem_append.mpr ⟨ih _ shorter, List.forall_mem_singleton.mpr
        (each _ (by omega))⟩

theorem forall_mem_map_toDigits {p : Char → Prop} (several : 1 < base) (hexadecimal : base ≤ 16)
    (each : ∀ d < 16, p d.digitChar) (numbers : List Nat) :
    ∀ part ∈ numbers.map (Nat.toDigits base), ∀ c ∈ part, p c := by
  intro part inside
  obtain ⟨n, -, rfl⟩ := List.mem_map.mp inside
  exact forall_mem_toDigits several hexadecimal each n

theorem toDigits_head_ne_zero (positive : 0 < n) :
    ∃ c rest, Nat.toDigits 10 n = c :: rest ∧ c ≠ '0' := by
  induction n using Nat.strongRecOn with
  | ind n ih =>
    rw [Nat.toDigits_eq_if (by decide)]
    split_ifs with small
    · refine ⟨n.digitChar, [], rfl, fun zero => ?_⟩
      rw [Nat.digitChar_eq_zero] at zero
      omega
    · obtain ⟨c, rest, digits, other⟩ := ih (n / 10) (by omega) (by omega)
      exact ⟨c, rest ++ [(n % 10).digitChar], by rw [digits, List.cons_append], other⟩

theorem digitValue_lt {c : Char} (found : digitValue base c = some d) : d < base := by
  rw [digitValue] at found
  obtain ⟨small, same⟩ := Option.ite_none_right_eq_some.mp found
  exact Option.some.inj same ▸ small

theorem foldl_digits_lt {digits : List Nat} (small : ∀ d ∈ digits, d < base) (value : Nat) :
    digits.foldl (fun value d => value * base + d) value < (value + 1) * base ^ digits.length := by
  induction digits generalizing value with
  | nil => simp
  | cons d rest ih =>
    obtain ⟨digit, small⟩ := List.forall_mem_cons.mp small
    have bound : value * base + d + 1 ≤ (value + 1) * base := by rw [Nat.add_mul]; omega
    calc rest.foldl (fun value d => value * base + d) (value * base + d)
      _ < (value * base + d + 1) * base ^ rest.length := ih small _
      _ ≤ (value + 1) * base * base ^ rest.length := Nat.mul_le_mul_right _ bound
      _ = (value + 1) * base ^ (d :: rest).length := by
        rw [List.length_cons, Nat.pow_succ', Nat.mul_assoc]

/-- A numeral of few digits is small. -/
theorem numeral_lt (found : numeral base cs = some n) : n < base ^ cs.length := by
  obtain ⟨digits, each, rfl⟩ := Option.map_eq_some_iff.mp found
  have values := mapM_eq_some_iff.mp each
  have small : ∀ d ∈ digits, d < base := by
    intro d inside
    have found : some d ∈ cs.map (digitValue base) := values ▸ List.mem_map_of_mem inside
    obtain ⟨c, -, known⟩ := List.mem_map.mp found
    exact digitValue_lt known
  have length : cs.length = digits.length := by simpa using congrArg List.length values
  have bound := foldl_digits_lt small 0
  rwa [Nat.zero_add, Nat.one_mul, ← length] at bound

end PlatformClient.Url.Host
