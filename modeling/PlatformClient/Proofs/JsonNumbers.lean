import Mathlib.Algebra.Group.Int.Defs
import PlatformClient.Json.Reader
import PlatformClient.Proofs.Numerals
import PlatformClient.Proofs.PercentEscapes
import PlatformClient.Proofs.Utf8RoundTrip

namespace PlatformClient.Json

section Digits

variable {cs : List Char} {rest : Bytes} {n : Nat}

/-- What follows a number that is written without point and exponent. -/
def EndsNumber (rest : Bytes) : Prop :=
  ∀ byte ∈ rest.head?, isDigitByte byte = false ∧ byte ≠ 0x2E ∧ byte ≠ 0x65 ∧ byte ≠ 0x45

theorem endsNumber_nil : EndsNumber [] := nofun

theorem endsNumber_cons {byte : UInt8} (other : isDigitByte byte = false) (point : byte ≠ 0x2E)
    (small : byte ≠ 0x65) (capital : byte ≠ 0x45) (rest : Bytes) : EndsNumber (byte :: rest) := by
  rintro _ ⟨⟩
  exact ⟨other, point, small, capital⟩

/-- A digit is one byte, and means the same as a byte. -/
theorem digit_byte {c : Char} (digit : c.isDigit = true) :
    String.utf8EncodeChar c = [UInt8.ofNat c.toNat] ∧ isDigitByte (UInt8.ofNat c.toNat) = true ∧
      (UInt8.ofNat c.toNat).toNat - 0x30 = c.toNat - '0'.toNat := by
  have bounds : 0x30 ≤ c.toNat ∧ c.toNat ≤ 0x39 := Char.isDigit_iff_toNat.mp digit
  have same : (UInt8.ofNat c.toNat).toNat = c.toNat :=
    UInt8.toNat_ofNat_of_lt' (Nat.lt_of_le_of_lt bounds.2 (by decide))
  refine ⟨?_, ?_, by rw [same]; rfl⟩
  · rcases Url.Percent.utf8EncodeChar_cases c with ⟨-, encoded⟩ | ⟨beyond, -⟩
    · exact encoded
    · omega
  · simp [isDigitByte, UInt8.le_iff_toNat_le, same, bounds]

theorem digitsOf_append (digits : ∀ c ∈ cs, c.isDigit = true) (ends : EndsNumber rest) :
    digitsOf (Text.encodeChars cs ++ rest) = cs.map (fun c => c.toNat - '0'.toNat) ∧
      skipDigits (Text.encodeChars cs ++ rest) = rest := by
  induction cs with
  | nil =>
    cases rest with
    | nil => exact ⟨rfl, rfl⟩
    | cons byte rest =>
      have other := (ends byte rfl).1
      simp [Text.encodeChars, digitsOf, skipDigits, other]
  | cons c cs ih =>
    obtain ⟨digit, digits⟩ := List.forall_mem_cons.mp digits
    obtain ⟨encoded, byte, same⟩ := digit_byte digit
    obtain ⟨taken, left⟩ := ih digits
    rw [Text.encodeChars_cons, encoded, List.singleton_append, List.cons_append]
    constructor
    · rw [digitsOf, List.takeWhile_cons_of_pos byte, List.map_cons, ← digitsOf, taken, same,
        List.map_cons]
    · rw [skipDigits, List.dropWhile_cons_of_pos byte, ← skipDigits, left]

theorem le_foldl_digits (value : Nat) (ds : List Nat) :
    value ≤ ds.foldl (fun value d => value * 10 + d) value := by
  induction ds generalizing value with
  | nil => exact Nat.le_refl value
  | cons d ds ih => exact Nat.le_trans (by omega) (ih (value * 10 + d))

/-- All digits of a number are collected where it fits into 64 bits. Those of a number that
does not would only be counted from some place on. -/
theorem collect_eq {value : Nat} {ds : List Nat}
    (fits : ds.foldl (fun value d => value * 10 + d) value < wordLimit) :
    collect value ds = (ds.foldl (fun value d => value * 10 + d) value, 0) := by
  induction ds generalizing value with
  | nil => rfl
  | cons d ds ih =>
    have small : value * 10 + d < wordLimit :=
      Nat.lt_of_le_of_lt (le_foldl_digits _ ds) fits
    rw [collect, if_pos small, ih fits, List.foldl_cons]

theorem collect_lt {value : Nat} {ds : List Nat} (small : value < wordLimit) :
    (collect value ds).1 < wordLimit := by
  induction ds generalizing value with
  | nil => exact small
  | cons d ds ih =>
    rw [collect]
    split_ifs with fits
    · exact ih fits
    · exact small

end Digits

section Printing

variable {rest left : Bytes} {negative : Bool} {n : Nat}

theorem afterWhole_ends (ends : EndsNumber rest) :
    afterWhole negative n 0 rest =
      if negative = false then .ok (.whole n, rest)
      else if n = 0 ∨ leastMagnitude < n then double true n 0 rest
      else .ok (.whole (-n), rest) := by
  cases rest with
  | nil => rfl
  | cons byte rest =>
    obtain ⟨-, point, small, capital⟩ := ends byte rfl
    unfold afterWhole
    simp [point, small, capital]

theorem isDigit_toDigits (n : Nat) : ∀ c ∈ Nat.toDigits 10 n, c.isDigit = true := fun _ inside =>
  Nat.isDigit_of_mem_toDigits (by decide) (by decide) inside

/-- The digits of a number are read to their end. -/
theorem unsigned_digits (fits : n < wordLimit) (ends : EndsNumber rest) :
    unsigned negative (Text.encodeChars (Nat.toDigits 10 n) ++ rest) =
      afterWhole negative n 0 rest := by
  rcases Nat.eq_zero_or_pos n with rfl | positive
  · have none : digitsOf rest = [] := by
      simpa [Text.encodeChars] using (digitsOf_append (List.forall_mem_nil _) ends).1
    have written : Text.encodeChars (Nat.toDigits 10 0) ++ rest = 0x30 :: rest := rfl
    rw [written, unsigned, if_pos rfl, none]
    rfl
  · obtain ⟨c, cs, written, other⟩ := Url.Host.toDigits_head_ne_zero positive
    obtain ⟨digit, digits⟩ := List.forall_mem_cons.mp (written ▸ isDigit_toDigits n)
    obtain ⟨encoded, byte, same⟩ := digit_byte digit
    obtain ⟨taken, left⟩ := digitsOf_append digits ends
    have whole : (cs.map fun c => c.toNat - '0'.toNat).foldl (fun value d => value * 10 + d)
        (c.toNat - '0'.toNat) = n := by
      have value : Nat.ofDigitChars 10 (Nat.toDigits 10 n) 0 = n := Nat.ofDigitChars_ten_toDigits
      rw [written, Nat.ofDigitChars_cons, Nat.ofDigitChars_eq_foldl] at value
      simpa [List.foldl_map, Nat.mul_comm] using value
    have nonzero : UInt8.ofNat c.toNat ≠ 0x30 := by
      intro zero
      have bounds := Char.isDigit_iff_toNat.mp digit
      rw [zero] at same
      refine other (Char.toNat_inj.mp (Nat.le_antisymm ?_ bounds.1))
      exact Nat.sub_eq_zero_iff_le.mp same.symm
    rw [written, Text.encodeChars_cons, encoded, List.singleton_append, List.cons_append, unsigned,
      if_neg nonzero, if_pos byte, taken, left, same, collect_eq (whole.symm ▸ fits), whole]

theorem toDigits_head (n : Nat) :
    ∃ byte behind, Text.encodeChars (Nat.toDigits 10 n) = byte :: behind ∧
      isDigitByte byte = true := by
  obtain ⟨c, cs, written⟩ := List.exists_cons_of_ne_nil (@Nat.toDigits_ne_nil n 10)
  obtain ⟨digit, -⟩ := List.forall_mem_cons.mp (written ▸ isDigit_toDigits n)
  obtain ⟨encoded, byte, -⟩ := digit_byte digit
  rw [written, Text.encodeChars_cons, encoded]
  exact ⟨_, _, rfl, byte⟩

theorem signed_of_digits (n : Nat) (rest : Bytes) :
    signed (Text.encodeChars (Nat.toDigits 10 n) ++ rest) =
      unsigned false (Text.encodeChars (Nat.toDigits 10 n) ++ rest) := by
  obtain ⟨byte, behind, begins, digit⟩ := toDigits_head n
  have other : byte ≠ 0x2D := by
    rintro rfl
    cases digit
  rw [begins, List.cons_append]
  unfold signed
  simp [other]

theorem print_ofNat (n : Nat) : Number.print (.whole (Int.ofNat n)) = Nat.toDigits 10 n := by
  simp [Number.print, toString, Int.repr, Nat.repr]

theorem print_negSucc (n : Nat) :
    Number.print (.whole (Int.negSucc n)) = '-' :: Nat.toDigits 10 (n + 1) := by
  simp [Number.print, toString, Int.repr, Nat.repr]

/-- A whole number begins with a sign or a digit. -/
theorem print_head (value : Int) :
    ∃ byte behind, Text.encodeChars (Number.print (.whole value)) = byte :: behind ∧
      (byte = 0x2D ∨ isDigitByte byte = true) := by
  rcases value with n | n
  · obtain ⟨byte, behind, begins, digit⟩ := toDigits_head n
    exact ⟨byte, behind, by rw [print_ofNat, begins], Or.inr digit⟩
  · exact ⟨0x2D, _, by rw [print_negSucc]; rfl, Or.inl rfl⟩

/-- A whole number of 64 bits is read as it was written, in front of what ends a number. The
bounds are not the same for both signs. -/
theorem signed_print {value : Int} (lower : -2 ^ 63 ≤ value) (upper : value < 2 ^ 64)
    (ends : EndsNumber rest) :
    signed (Text.encodeChars (Number.print (.whole value)) ++ rest) =
      .ok (.whole value, rest) := by
  rcases value with n | n
  · have fits : n < wordLimit := Int.ofNat_lt.mp upper
    rw [print_ofNat, signed_of_digits, unsigned_digits fits ends, afterWhole_ends ends, if_pos rfl]
    rfl
  · have small : n + 1 ≤ leastMagnitude := by
      rw [leastMagnitude]
      omega
    have fits : n + 1 < wordLimit := Nat.lt_of_le_of_lt small (by decide)
    have within : ¬ (n + 1 = 0 ∨ leastMagnitude < n + 1) := by omega
    have minus : String.utf8EncodeChar '-' = [0x2D] := rfl
    rw [print_negSucc, Text.encodeChars_cons, minus, List.singleton_append, List.cons_append,
      signed, unsigned_digits fits ends, afterWhole_ends ends, if_neg (by decide), if_neg within]
    rfl

/-- A number that is read as it is printed, in front of what ends a number. Whole numbers of
64 bits are, and doubles need not be. -/
structure Number.Legible (number : Number) : Prop where
  head : ∃ byte behind, Text.encodeChars number.print = byte :: behind ∧
    (byte = 0x2D ∨ isDigitByte byte = true)
  read : ∀ rest, EndsNumber rest →
    signed (Text.encodeChars number.print ++ rest) = .ok (number, rest)

theorem legible_whole {value : Int} (lower : -2 ^ 63 ≤ value) (upper : value < 2 ^ 64) :
    (Number.whole value).Legible where
  head := print_head value
  read _ ends := signed_print lower upper ends

/-- The zero that is read of a zero behind a sign. -/
def negativeZero : Binary64 := Binary64.zero.neg

theorem print_negativeZero : Number.print (.double negativeZero) = ['-', '0', '.', '0'] := rfl

theorem double_negativeZero : double true 0 (-1) rest = .ok (.double negativeZero, rest) := by
  unfold double
  rfl

theorem fraction_zero (ends : EndsNumber rest) :
    fraction true 0 0 (0x30 :: rest) = .ok (.double negativeZero, rest) := by
  have digit : ∀ c ∈ ['0'], c.isDigit = true := List.forall_mem_singleton.mpr rfl
  obtain ⟨taken, left⟩ := digitsOf_append digit ends
  have one : (0x30 : UInt8) :: rest = Text.encodeChars ['0'] ++ rest := rfl
  rw [one, fraction, taken, left, ← double_negativeZero]
  cases rest with
  | nil => rfl
  | cons byte rest =>
    obtain ⟨-, -, small, capital⟩ := ends byte rfl
    simp [afterDigits, collect, small, capital, wordLimit]

theorem legible_negativeZero : (Number.double negativeZero).Legible where
  head := ⟨0x2D, _, by rw [print_negativeZero]; rfl, Or.inl rfl⟩
  read rest ends := by
    have written : Text.encodeChars ['-', '0', '.', '0'] ++ rest =
        0x2D :: 0x30 :: 0x2E :: 0x30 :: rest := rfl
    rw [print_negativeZero, written, ← fraction_zero ends]
    rfl

end Printing

section Bounds

variable {rest left : Bytes} {negative : Bool} {digits : Nat} {value : Int}

theorem double_ne_whole {places : Int} :
    double negative digits places rest ≠ .ok (.whole value, left) := by
  unfold double
  cases Binary64.ofDecimal digits places <;> exact nofun

theorem exponentDigits_ne_whole {places : Int} {minus : Bool} {exponent : Nat} :
    exponentDigits negative digits places minus exponent rest ≠ .ok (.whole value, left) := by
  induction rest generalizing exponent with
  | nil => exact double_ne_whole
  | cons byte rest ih =>
    unfold exponentDigits
    dsimp only
    split_ifs
    · exact ih
    · exact nofun
    · exact nofun
    all_goals exact double_ne_whole

theorem exponentPart_ne_whole {places : Int} :
    exponentPart negative digits places rest ≠ .ok (.whole value, left) := by
  unfold exponentPart
  dsimp only
  split
  · exact nofun
  · split_ifs
    · exact exponentDigits_ne_whole
    · exact nofun

theorem afterDigits_ne_whole {places : Int} :
    afterDigits negative digits places rest ≠ .ok (.whole value, left) := by
  unfold afterDigits
  split
  · exact exponentPart_ne_whole
  · exact exponentPart_ne_whole
  · exact double_ne_whole

theorem fraction_ne_whole {places : Int} :
    fraction negative digits places rest ≠ .ok (.whole value, left) := by
  unfold fraction
  split
  · exact nofun
  · exact afterDigits_ne_whole

/-- Only a number that fits is whole. -/
theorem bounds_of_afterWhole {omitted : Nat} (small : digits < wordLimit)
    (read : afterWhole negative digits omitted rest = .ok (.whole value, left)) :
    -2 ^ 63 ≤ value ∧ value < 2 ^ 64 := by
  unfold afterWhole at read
  split at read
  · exact absurd read fraction_ne_whole
  · exact absurd read exponentPart_ne_whole
  · exact absurd read exponentPart_ne_whole
  · split_ifs at read with places positive large
    · exact absurd read double_ne_whole
    · cases read
      rw [wordLimit] at small
      omega
    · exact absurd read double_ne_whole
    · cases read
      rw [leastMagnitude] at large
      omega

/-- A whole number that is read has 64 bits. -/
theorem bounds_of_signed (read : signed rest = .ok (.whole value, left)) :
    -2 ^ 63 ≤ value ∧ value < 2 ^ 64 := by
  have bounds : ∀ {negative : Bool} {rest : Bytes},
      unsigned negative rest = .ok (.whole value, left) → -2 ^ 63 ≤ value ∧ value < 2 ^ 64 := by
    intro negative rest read
    unfold unsigned at read
    split at read
    · cases read
    · rename_i byte rest
      split_ifs at read with zero none digit
      · exact bounds_of_afterWhole (by decide) read
      · cases read
      · have small : byte.toNat - 0x30 < wordLimit :=
          Nat.lt_of_le_of_lt (Nat.sub_le _ _) (Nat.lt_trans byte.toNat_lt (by decide))
        exact bounds_of_afterWhole (collect_lt small) read
      · cases read
  unfold signed at read
  split at read
  · exact bounds read
  · exact bounds read

end Bounds

end PlatformClient.Json
