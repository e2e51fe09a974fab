import Mathlib.Data.List.Basic
import PlatformClient.Proofs.Outcomes
import PlatformClient.Text.Utf8

namespace PlatformClient.Text

namespace Utf8State

variable {n low high later value : Nat} {state : Utf8State} {rest : Bytes}

theorem pieces_ascii (ascii : n < 0x80) :
    boundary.pieces (UInt8.ofNat n :: rest) = some (Char.ofNat n) :: boundary.pieces rest := by
  have byte : (UInt8.ofNat n).toNat = n := by simp; omega
  simp [pieces, step, atBoundary, byte, ascii]

theorem pieces_lead (byte : n < 0x100) (beyond : 0x80 ≤ n) (found : lead n = some state) :
    boundary.pieces (UInt8.ofNat n :: rest) = state.pieces rest := by
  have same : (UInt8.ofNat n).toNat = n := by simp; omega
  have large : ¬ n < 0x80 := by omega
  simp [pieces, step, atBoundary, same, large, found]

theorem pieces_last (byte : n < 0x100) (lower : low ≤ n) (upper : n ≤ high) :
    (inside low high 0 value).pieces (UInt8.ofNat n :: rest) =
      some (Char.ofNat (append value n)) :: boundary.pieces rest := by
  have same : (UInt8.ofNat n).toNat = n := by simp; omega
  simp [pieces, step, same, lower, upper]

theorem pieces_more (byte : n < 0x100) (lower : low ≤ n) (upper : n ≤ high) :
    (inside low high (later + 1) value).pieces (UInt8.ofNat n :: rest) =
      (inside 0x80 0xBF later (append value n)).pieces rest := by
  have same : (UInt8.ofNat n).toNat = n := by simp; omega
  simp [pieces, step, same, lower, upper]

/-- The bounds on the second of three bytes leave room for every character. -/
theorem lead_of_three (lower : 0x800 ≤ n) (upper : n < 0x10000)
    (valid : n < 0xD800 ∨ 0xE000 ≤ n) :
    ∃ low high, lead (n / 4096 % 16 + 224) = some (inside low high 1 (n / 4096)) ∧
      low ≤ n / 64 % 64 + 128 ∧ n / 64 % 64 + 128 ≤ high := by
  have small : n / 4096 < 16 := by omega
  rw [Nat.mod_eq_of_lt small]
  unfold lead
  rw [if_neg (by omega), if_neg (by omega)]
  split_ifs with first surrogate other
  · exact ⟨0xA0, 0xBF, by rw [show n / 4096 = 0 by omega], by omega, by omega⟩
  · exact ⟨0x80, 0x9F, by rw [show n / 4096 = 13 by omega], by omega, by omega⟩
  · exact ⟨0x80, 0xBF, by rw [show (n / 4096 + 224) % 16 = n / 4096 by omega], by omega, by omega⟩
  all_goals omega

/-- So do those on the second of four bytes. -/
theorem lead_of_four (lower : 0x10000 ≤ n) (upper : n < 0x110000) :
    ∃ low high, lead (n / 262144 % 8 + 240) = some (inside low high 2 (n / 262144)) ∧
      low ≤ n / 4096 % 64 + 128 ∧ n / 4096 % 64 + 128 ≤ high := by
  have small : n / 262144 < 5 := by omega
  rw [Nat.mod_eq_of_lt (by omega)]
  unfold lead
  rw [if_neg (by omega), if_neg (by omega), if_neg (by omega), if_neg (by omega), if_neg (by omega)]
  split_ifs with first other last
  · exact ⟨0x90, 0xBF, by rw [show n / 262144 = 0 by omega], by omega, by omega⟩
  · exact ⟨0x80, 0xBF, by rw [show (n / 262144 + 240) % 8 = n / 262144 by omega], by omega,
      by omega⟩
  · exact ⟨0x80, 0x8F, by rw [show n / 262144 = 4 by omega], by omega, by omega⟩
  all_goals omega

/-- The bytes of a character are one piece, whatever follows them. The lead byte says how
many more there are and in which bounds the next one lies, and the encoding keeps to these
bounds. -/
theorem pieces_encodeChar (c : Char) (rest : Bytes) :
    boundary.pieces (String.utf8EncodeChar c ++ rest) = some c :: boundary.pieces rest := by
  have valid : c.toNat < 0xD800 ∨ 0xDFFF < c.toNat ∧ c.toNat < 0x110000 := c.valid
  have same : Char.ofNat c.toNat = c := Char.ofNat_toNat c
  rw [String.utf8EncodeChar.eq_1, ← Char.toNat]
  split_ifs with one two three
  · rw [List.singleton_append, pieces_ascii (by omega), same]
  · have lead : lead (c.toNat / 64 % 32 + 192) = some (inside 0x80 0xBF 0 (c.toNat / 64)) := by
      unfold Utf8State.lead
      rw [if_neg (by omega), if_pos (by omega),
        show (c.toNat / 64 % 32 + 192) % 32 = c.toNat / 64 by omega]
    rw [List.cons_append, List.singleton_append, pieces_lead (by omega) (by omega) lead,
      pieces_last (by omega) (by omega) (by omega), append,
      show c.toNat / 64 * 64 + (c.toNat % 64 + 128) % 64 = c.toNat by omega, same]
  · obtain ⟨low, high, lead, lower, upper⟩ := lead_of_three (n := c.toNat) (by omega) (by omega)
      (by omega)
    rw [List.cons_append, List.cons_append, List.singleton_append,
      pieces_lead (by omega) (by omega) lead, pieces_more (by omega) lower upper,
      pieces_last (by omega) (by omega) (by omega), append, append,
      show (c.toNat / 4096 * 64 + (c.toNat / 64 % 64 + 128) % 64) * 64 + (c.toNat % 64 + 128) % 64 =
        c.toNat by omega, same]
  · obtain ⟨low, high, lead, lower, upper⟩ := lead_of_four (n := c.toNat) (by omega) (by omega)
    rw [List.cons_append, List.cons_append, List.cons_append, List.singleton_append,
      pieces_lead (by omega) (by omega) lead, pieces_more (by omega) lower upper,
      pieces_more (by omega) (by omega) (by omega), pieces_last (by omega) (by omega) (by omega),
      append, append, append,
      show ((c.toNat / 262144 * 64 + (c.toNat / 4096 % 64 + 128) % 64) * 64 +
        (c.toNat / 64 % 64 + 128) % 64) * 64 + (c.toNat % 64 + 128) % 64 = c.toNat by omega, same]

theorem pieces_encodeChars (cs : List Char) : boundary.pieces (encodeChars cs) = cs.map some := by
  induction cs with
  | nil => rfl
  | cons c rest ih =>
    change boundary.pieces (String.utf8EncodeChar c ++ encodeChars rest) = _
    rw [pieces_encodeChar, ih, List.map_cons]

theorem lead_ne_boundary (byte : Nat) : lead byte ≠ some boundary := by
  unfold lead
  split_ifs <;> simp

/-- Each byte completes a piece or leaves a character begun. So a boundary is reached only
where a piece has been given out. -/
theorem step_of_no_piece {state : Utf8State} {byte : UInt8} (none : (state.step byte).1 = []) :
    (state.step byte).2 ≠ boundary := by
  cases state with
  | boundary =>
    change (atBoundary byte.toNat).1 = [] at none
    change (atBoundary byte.toNat).2 ≠ boundary
    unfold atBoundary at *
    split_ifs at * with ascii
    split at none <;> rename_i found
    · rintro rfl
      exact lead_ne_boundary _ found
    · cases none
  | inside low high later value =>
    simp only [step] at *
    split_ifs at * with continued
    cases later with
    | zero => cases none
    | succ later => exact nofun

theorem pieces_cons (state : Utf8State) (byte : UInt8) (rest : Bytes) :
    state.pieces (byte :: rest) = (state.step byte).1 ++ (state.step byte).2.pieces rest := by
  cases state <;> rfl

theorem pieces_eq_nil {state : Utf8State} {bytes : Bytes} (none : state.pieces bytes = []) :
    state = boundary ∧ bytes = [] := by
  induction bytes generalizing state with
  | nil =>
    cases state with
    | boundary => exact ⟨rfl, rfl⟩
    | inside low high later value => cases none
  | cons byte rest ih =>
    rw [pieces_cons, List.append_eq_nil_iff] at none
    exact absurd (ih none.2).1 (step_of_no_piece none.1)

end Utf8State

theorem decodeLossy_isEmpty_iff (bytes : Bytes) : (decodeLossy bytes).isEmpty ↔ bytes = [] := by
  rw [String.isEmpty_iff, decodeLossy, String.ofList_eq_empty_iff, decodeLossyChars,
    List.map_eq_nil_iff]
  constructor
  · intro none
    exact (Utf8State.pieces_eq_nil none).2
  · rintro rfl
    rfl

theorem encodeChars_cons (c : Char) (cs : List Char) :
    encodeChars (c :: cs) = String.utf8EncodeChar c ++ encodeChars cs := List.flatMap_cons

theorem encodeChars_append (cs more : List Char) :
    encodeChars (cs ++ more) = encodeChars cs ++ encodeChars more := List.flatMap_append

theorem decodeChars?_encodeChars (cs : List Char) : decodeChars? (encodeChars cs) = some cs := by
  have whole : (cs.map some).mapM id = some cs := by
    rw [mapM_eq_some_iff, List.map_id]
  rw [decodeChars?, Utf8State.pieces_encodeChars, whole]

/-- What has been encoded can be decoded. By induction over the characters, as the bytes of
each are one piece of the whole. -/
theorem decode?_encode (s : String) : decode? (encode s) = some s := by
  rw [decode?, encode, decodeChars?_encodeChars, Option.map_some, String.ofList_toList]

end PlatformClient.Text
