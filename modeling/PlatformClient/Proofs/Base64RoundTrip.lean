import PlatformClient.Text.Base64

namespace PlatformClient.Text.Base64

/-- The digits, in the order of the bits for which they stand. -/
def alphabet : List Char := "ABCDEFGHIJKLMNOPQRSTUVWXYZabcdefghijklmnopqrstuvwxyz0123456789+/".toList

/-- The six bits for which a digit stands. -/
def value? (c : Char) : Option Nat := alphabet.idxOf? c

/-- The bits of some digits, those of the first one highest. -/
def bits? (cs : List Char) : Option Nat :=
  cs.foldlM (fun bits c => (value? c).map fun value => bits * 64 + value) 0

/-- Four digits are read as three bytes. A last group that is filled up with equals signs is
read as one or two bytes, and no bit may be left of it, so that no two texts stand for the
same bytes. -/
def decodeChars? : List Char → Option Bytes
  | [] => some []
  | [a, b, '=', '='] => do
    let bits ← bits? [a, b]
    if bits % 16 = 0 then some [.ofNat (bits / 16)] else none
  | [a, b, c, '='] => do
    let bits ← bits? [a, b, c]
    if bits % 4 = 0 then some [.ofNat (bits / 1024), .ofNat (bits / 4)] else none
  | a :: b :: c :: d :: rest => do
    let bits ← bits? [a, b, c, d]
    let bytes ← decodeChars? rest
    return .ofNat (bits / 65536) :: .ofNat (bits / 256) :: .ofNat bits :: bytes
  | _ => none

def decode? (text : String) : Option Bytes := decodeChars? text.toList

theorem value?_digit : ∀ n < 64, value? (digit n) = some n := by decide +kernel

theorem digit_ne_equals : ∀ n < 64, digit n ≠ '=' := by decide +kernel

theorem bits?_digits {values : List Nat} (small : ∀ n ∈ values, n < 64) :
    bits? (values.map digit) = some (values.foldl (fun bits n => bits * 64 + n) 0) := by
  unfold bits?
  generalize 0 = bits
  induction values generalizing bits with
  | nil => rfl
  | cons n rest ih =>
    obtain ⟨first, small⟩ := List.forall_mem_cons.mp small
    rw [List.map_cons, List.foldlM_cons, value?_digit n first]
    exact ih small (bits * 64 + n)

/-- What holds of all digits and of the equals sign holds of all that is written. The proof
follows the groups of three bytes. -/
theorem forall_mem_encodeChars {p : Char → Prop} (digits : ∀ n < 64, p (digit n)) (equals : p '=')
    (bytes : Bytes) : ∀ c ∈ encodeChars bytes, p c := by
  fun_induction encodeChars bytes with
  | case1 => exact nofun
  | case2 a =>
    have high := a.toNat_lt
    simp only [List.forall_mem_cons]
    exact ⟨digits _ (by omega), digits _ (by omega), equals, equals, nofun⟩
  | case3 a b =>
    have high := a.toNat_lt
    have low := b.toNat_lt
    simp only [List.forall_mem_cons]
    exact ⟨digits _ (by omega), digits _ (by omega), digits _ (by omega), equals, nofun⟩
  | case4 a b c rest ih =>
    have high := a.toNat_lt
    have middle := b.toNat_lt
    have low := c.toNat_lt
    simp only [List.forall_mem_cons]
    exact ⟨digits _ (by omega), digits _ (by omega), digits _ (by omega), digits _ (by omega), ih⟩

theorem ofNat_eq {n : Nat} {byte : UInt8} (same : n % 256 = byte.toNat) : UInt8.ofNat n = byte :=
  UInt8.toNat_inj.mp (UInt8.toNat_ofNat'.trans same)

theorem decodeChars?_one (a : UInt8) :
    decodeChars? [digit (a.toNat / 4), digit (a.toNat % 4 * 16), '=', '='] = some [a] := by
  have high := a.toNat_lt
  have bits : (0 * 64 + a.toNat / 4) * 64 + a.toNat % 4 * 16 = a.toNat * 16 := by omega
  have read : bits? [digit (a.toNat / 4), digit (a.toNat % 4 * 16)] = some (a.toNat * 16) :=
    (@bits?_digits [_, _] (by simp; omega)).trans (congrArg some bits)
  have first : UInt8.ofNat (a.toNat * 16 / 16) = a := ofNat_eq (by omega)
  rw [decodeChars?, read, Option.bind_eq_bind, Option.bind_some, if_pos (by omega), first]

theorem decodeChars?_two (a b : UInt8) :
    decodeChars? [digit (a.toNat / 4), digit (a.toNat % 4 * 16 + b.toNat / 16),
      digit (b.toNat % 16 * 4), '='] = some [a, b] := by
  have high := a.toNat_lt
  have low := b.toNat_lt
  have bits : ((0 * 64 + a.toNat / 4) * 64 + (a.toNat % 4 * 16 + b.toNat / 16)) * 64 +
      b.toNat % 16 * 4 = a.toNat * 1024 + b.toNat * 4 := by omega
  have read : bits? [digit (a.toNat / 4), digit (a.toNat % 4 * 16 + b.toNat / 16),
      digit (b.toNat % 16 * 4)] = some (a.toNat * 1024 + b.toNat * 4) :=
    (@bits?_digits [_, _, _] (by simp; omega)).trans (congrArg some bits)
  have first : UInt8.ofNat ((a.toNat * 1024 + b.toNat * 4) / 1024) = a := ofNat_eq (by omega)
  have second : UInt8.ofNat ((a.toNat * 1024 + b.toNat * 4) / 4) = b := ofNat_eq (by omega)
  rw [decodeChars?, read, Option.bind_eq_bind, Option.bind_some, if_pos (by omega), first, second]
  exact digit_ne_equals _ (by omega)

theorem decodeChars?_three (a b c : UInt8) {cs : List Char} {bytes : Bytes}
    (further : decodeChars? cs = some bytes) :
    decodeChars? (digit (a.toNat / 4) :: digit (a.toNat % 4 * 16 + b.toNat / 16) ::
      digit (b.toNat % 16 * 4 + c.toNat / 64) :: digit (c.toNat % 64) :: cs) =
        some (a :: b :: c :: bytes) := by
  have high := a.toNat_lt
  have middle := b.toNat_lt
  have low := c.toNat_lt
  have bits : (((0 * 64 + a.toNat / 4) * 64 + (a.toNat % 4 * 16 + b.toNat / 16)) * 64 +
      (b.toNat % 16 * 4 + c.toNat / 64)) * 64 + c.toNat % 64 =
        a.toNat * 65536 + b.toNat * 256 + c.toNat := by omega
  have read : bits? [digit (a.toNat / 4), digit (a.toNat % 4 * 16 + b.toNat / 16),
      digit (b.toNat % 16 * 4 + c.toNat / 64), digit (c.toNat % 64)] =
        some (a.toNat * 65536 + b.toNat * 256 + c.toNat) :=
    (@bits?_digits [_, _, _, _] (by simp; omega)).trans (congrArg some bits)
  have first : UInt8.ofNat ((a.toNat * 65536 + b.toNat * 256 + c.toNat) / 65536) = a :=
    ofNat_eq (by omega)
  have second : UInt8.ofNat ((a.toNat * 65536 + b.toNat * 256 + c.toNat) / 256) = b :=
    ofNat_eq (by omega)
  have third : UInt8.ofNat (a.toNat * 65536 + b.toNat * 256 + c.toNat) = c := ofNat_eq (by omega)
  have last : digit (c.toNat % 64) ≠ '=' := digit_ne_equals _ (by omega)
  rw [decodeChars?, read, further, Option.bind_eq_bind, Option.bind_some, Option.bind_eq_bind,
    Option.bind_some, first, second, third]
  · rfl
  -- Without an equals sign at its end, this is no last group.
  · exact fun _ equals => absurd equals last
  · exact fun equals => absurd equals last

theorem decodeChars?_encodeChars (bytes : Bytes) :
    decodeChars? (encodeChars bytes) = some bytes := by
  fun_induction encodeChars bytes with
  | case1 => rfl
  | case2 a => exact decodeChars?_one a
  | case3 a b => exact decodeChars?_two a b
  | case4 a b c rest ih => exact decodeChars?_three a b c ih

/-- Bytes are read from what is written of them, however many of them are left for the last
group. -/
theorem decode?_encode (bytes : Bytes) : decode? (encode bytes) = some bytes := by
  rw [decode?, encode, String.toList_ofList, decodeChars?_encodeChars]

example : decode? "ZGV2QGV4YW1wbGUuY29t" = some (Text.encode "dev@example.com") := by
  decide +kernel

end PlatformClient.Text.Base64
